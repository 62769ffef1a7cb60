import Mathlib.Algebra.Group.Nat.Defs
import Mathlib.Data.List.TakeWhile

/-!
# The size of the guest's memory

`parse_ram_size` leaves the number to `sscanf`, with the conversions `%llu`
and `%c`: blanks in front of the number are skipped, it may have a sign, and
what comes behind the second conversion is not looked at.
-/

namespace Kemu.Init.RamSize

/-! ## The code -/

/-- A string up to the byte that ends it. -/
structure CStr where
  bytes : List UInt8
  noZero : (0 : UInt8) ∉ bytes

/-- `isspace`. -/
def isspace (c : UInt8) : Bool :=
  c = 32 ∨ 9 ≤ c ∧ c ≤ 13

/-- `isdigit`. -/
def isdigit (c : UInt8) : Bool :=
  48 ≤ c ∧ c ≤ 57

/-- `toupper`. -/
def toupper (c : UInt8) : UInt8 :=
  if 97 ≤ c ∧ c ≤ 122 then c - 32 else c

/-- The parts of a text that the conversion of a number looks at. -/
structure Numeral where
  blanks : List UInt8
  sign : List UInt8
  digits : List UInt8
  rest : List UInt8
deriving DecidableEq, Repr

def signOf : List UInt8 → List UInt8
  | [] => []
  | c :: _ => if c = 43 ∨ c = 45 then [c] else []

def numeral (text : List UInt8) : Numeral :=
  let signed := text.dropWhile isspace
  let body := signed.drop (signOf signed).length
  { blanks := text.takeWhile isspace
    sign := signOf signed
    digits := body.takeWhile isdigit
    rest := body.dropWhile isdigit }

/-- The number that some digits stand for. -/
def decimal (digits : List UInt8) : Nat :=
  digits.foldl (fun value c => 10 * value + (c.toNat - 48)) 0

/--
`%llu`: a number that does not fit becomes the largest one, and a minus sign
changes the sign of one that fits.
-/
def Numeral.value (number : Numeral) : UInt64 :=
  if 2 ^ 64 ≤ decimal number.digits then
    .ofNat (2 ^ 64 - 1)
  else if number.sign = [45] then
    -.ofNat (decimal number.digits)
  else
    .ofNat (decimal number.digits)

/-- What `sscanf` returns, and `ram_size` and `unit` after it. -/
structure Scanned where
  numConverted : Int
  ramSize : UInt64
  unit : UInt8

/-- `sscanf` with `%llu%c`. -/
def sscanf (text : List UInt8) (ramSize : UInt64) (unit : UInt8) : Scanned :=
  let number := numeral text
  if number.digits = [] then
    ⟨if number.rest = [] then -1 else 0, ramSize, unit⟩
  else
    match number.rest with
    | [] => ⟨1, number.value, unit⟩
    | c :: _ => ⟨2, number.value, c⟩

/-- `KB`. -/
def kb : UInt64 := 1024

/-- `MB`. -/
def mb : UInt64 := 1024 * 1024

/-- `GB`. -/
def gb : UInt64 := 1024 * 1024 * 1024

/-- The `switch` over the unit. -/
def applyUnit (ramSize : UInt64) (unit : UInt8) : UInt64 :=
  if toupper unit = 75 then
    ramSize * kb
  else if toupper unit = 77 then
    ramSize * mb
  else if toupper unit = 71 then
    ramSize * gb
  else if toupper unit = 0 then
    ramSize
  else
    0

/-- `parse_ram_size`. -/
def parseRamSize : Option CStr → UInt64
  | none => 0
  | some ramSizeStr =>
      if ramSizeStr.bytes = [] then
        0
      else
        let scanned := sscanf ramSizeStr.bytes 0 0
        if scanned.numConverted ≠ 2 ∧ scanned.numConverted ≠ 1 then
          0
        else
          applyUnit scanned.ramSize scanned.unit

/-! ## What is documented -/

/-- The unit a suffix stands for. -/
def suffixUnit : List UInt8 → Option Nat
  | [] => some 1
  | [c] =>
      if c = 75 ∨ c = 107 then some (2 ^ 10)
      else if c = 77 ∨ c = 109 then some (2 ^ 20)
      else if c = 71 ∨ c = 103 then some (2 ^ 30)
      else none
  | _ => none

/-- A text of the grammar `[0-9]+[KMG]?` whose product fits in 64 bits. -/
def Documented (text : List UInt8) (product : Nat) : Prop :=
  ∃ digits suffix unit,
    text = digits ++ suffix ∧ digits ≠ [] ∧
      (∀ c ∈ digits, isdigit c) ∧ suffixUnit suffix = some unit ∧
      product = decimal digits * unit ∧ product < 2 ^ 64

/-- Such a text gives its product, and any other one gives nothing. -/
def ParsesAsDocumented (text : CStr) : Prop :=
  (∀ product, Documented text.bytes product →
      (parseRamSize (some text)).toNat = product) ∧
    ((∀ product, ¬ Documented text.bytes product) →
      parseRamSize (some text) = 0)

/-- The factor that the byte behind the number stands for. -/
def factor (rest : List UInt8) : Option UInt64 :=
  match rest with
  | [] => some 1
  | c :: _ =>
      if toupper c = 75 then some kb
      else if toupper c = 77 then some mb
      else if toupper c = 71 then some gb
      else none

/--
There is no number or no unit, the product is a multiple of `2 ^ 64`, or the
text is of the grammar and its product fits.
-/
def Plain (text : List UInt8) : Prop :=
  (numeral text).digits = [] ∨
    ∀ unit, factor (numeral text).rest = some unit →
      (decimal (numeral text).digits < 2 ^ 64 ∧
          2 ^ 64 ∣ decimal (numeral text).digits * unit.toNat) ∨
        ((numeral text).blanks = [] ∧ (numeral text).sign = [] ∧
          (numeral text).rest.length ≤ 1 ∧
            decimal (numeral text).digits * unit.toNat < 2 ^ 64)

/-! ## Bytes -/

theorem isdigit_spec {c : UInt8} (digit : isdigit c) :
    isspace c = false ∧ c ≠ 43 ∧ c ≠ 45 := by
  have range : 48 ≤ c ∧ c ≤ 57 := of_decide_eq_true digit
  have low : 48 ≤ c.toNat := range.1
  refine ⟨decide_eq_false ?_, ?_, ?_⟩
  · rintro (rfl | ⟨-, blank⟩)
    · exact absurd low (by decide)
    · have high : c.toNat ≤ 13 := blank
      omega
  · rintro rfl
    exact absurd low (by decide)
  · rintro rfl
    exact absurd low (by decide)

/-- An upper case letter comes from itself and from its lower case. -/
theorem toupper_eq_iff {c letter : UInt8} (upper : 65 ≤ letter)
    (last : letter ≤ 90) :
    toupper c = letter ↔ c = letter ∨ c = letter + 32 := by
  have first : 65 ≤ letter.toNat := upper
  have high : letter.toNat ≤ 90 := last
  have shifted : (letter + 32).toNat = letter.toNat + 32 := by
    have fits : letter.toNat + 32 < 2 ^ 8 := by omega
    exact Nat.mod_eq_of_lt fits
  rw [toupper]
  split
  case isTrue lower =>
    have low : 97 ≤ c.toNat := lower.1
    have less : (32 : UInt8) ≤ c := Nat.le_trans (by decide) low
    rw [← UInt8.toNat_inj, UInt8.toNat_sub_of_le _ _ less,
      ← UInt8.toNat_inj, ← UInt8.toNat_inj, shifted]
    have offset : (32 : UInt8).toNat = 32 := rfl
    omega
  case isFalse other =>
    refine (or_iff_left ?_).symm
    rintro rfl
    apply other
    have low : 97 ≤ (letter + 32).toNat := by omega
    have top : (letter + 32).toNat ≤ 122 := by omega
    exact ⟨low, top⟩

theorem toupper_ne_zero {c : UInt8} (nonzero : c ≠ 0) : toupper c ≠ 0 := by
  rw [toupper]
  split
  case isTrue lower =>
    have low : 97 ≤ c.toNat := lower.1
    have less : (32 : UInt8) ≤ c := Nat.le_trans (by decide) low
    intro zero
    have size := congrArg UInt8.toNat zero
    rw [UInt8.toNat_sub_of_le _ _ less] at size
    have offset : (32 : UInt8).toNat = 32 := rfl
    have none : (0 : UInt8).toNat = 0 := rfl
    omega
  case isFalse => exact nonzero

/-! ## What the code returns -/

theorem applyUnit_factor (ramSize : UInt64) {c : UInt8} (nonzero : c ≠ 0)
    (rest : List UInt8) :
    applyUnit ramSize c =
      match factor (c :: rest) with
      | none => 0
      | some unit => ramSize * unit := by
  rw [applyUnit, factor]
  split
  · rfl
  · split
    · rfl
    · split
      · rfl
      · rw [if_neg (toupper_ne_zero nonzero)]

theorem numeral_rest_mem {text : List UInt8} {c : UInt8}
    (member : c ∈ (numeral text).rest) : c ∈ text :=
  (List.dropWhile_sublist _).subset
    (List.mem_of_mem_drop ((List.dropWhile_sublist _).subset member))

/-- The result by the parts of the text. -/
theorem parseRamSize_eq (text : CStr) :
    parseRamSize (some text) =
      if (numeral text.bytes).digits = [] then
        0
      else
        match factor (numeral text.bytes).rest with
        | none => 0
        | some unit => (numeral text.bytes).value * unit := by
  rw [parseRamSize]
  split
  case isTrue empty => rw [empty]; rfl
  case isFalse =>
    rw [sscanf]
    dsimp only
    split
    case isTrue none =>
      split <;> rfl
    case isFalse =>
      cases behind : (numeral text.bytes).rest with
      | nil =>
          exact (UInt64.mul_one _).symm
      | cons c rest =>
          have nonzero : c ≠ 0 := by
            rintro rfl
            exact
              text.noZero
                (numeral_rest_mem (behind ▸ List.mem_cons_self))
          exact applyUnit_factor _ nonzero rest

theorem factor_cases {rest : List UInt8} {unit : UInt64}
    (known : factor rest = some unit) :
    unit = 1 ∨ unit = kb ∨ unit = mb ∨ unit = gb := by
  cases rest with
  | nil => exact Or.inl (Option.some.inj known).symm
  | cons c rest =>
      rw [factor] at known
      split at known
      · exact Or.inr (Or.inl (Option.some.inj known).symm)
      · split at known
        · exact Or.inr (Or.inr (Or.inl (Option.some.inj known).symm))
        · split at known
          · exact Or.inr (Or.inr (Or.inr (Option.some.inj known).symm))
          · cases known

/-- Zero comes out when the product is a multiple of `2 ^ 64`. -/
theorem value_mul_eq_zero_iff (number : Numeral) {unit : UInt64}
    (known : factor number.rest = some unit) :
    number.value * unit = 0 ↔
      decimal number.digits < 2 ^ 64 ∧
        2 ^ 64 ∣ decimal number.digits * unit.toNat := by
  have product :
      UInt64.ofNat (decimal number.digits) * unit = 0 ↔
        2 ^ 64 ∣ decimal number.digits * unit.toNat := by
    rw [← UInt64.toNat_inj, UInt64.toNat_mul, UInt64.toNat_ofNat',
      Nat.mod_mul_mod, Nat.dvd_iff_mod_eq_zero]
    rfl
  rw [Numeral.value]
  split
  case isTrue large =>
    refine iff_of_false ?_ (fun both => Nat.not_lt.2 large both.1)
    rcases factor_cases known with rfl | rfl | rfl | rfl <;> decide
  case isFalse small =>
    rw [and_iff_right (Nat.not_le.1 small), ← product]
    split
    · rw [UInt64.neg_mul]
      exact @UInt64.neg_inj _ 0
    · rfl

/-! ## Texts of the grammar -/

theorem suffixUnit_eq {rest : List UInt8} (short : rest.length ≤ 1) :
    suffixUnit rest = (factor rest).map UInt64.toNat := by
  match rest, short with
  | [], _ => rfl
  | [c], _ =>
      have kilo : toupper c = 75 ↔ c = 75 ∨ c = 107 :=
        toupper_eq_iff (by decide) (by decide)
      have mega : toupper c = 77 ↔ c = 77 ∨ c = 109 :=
        toupper_eq_iff (by decide) (by decide)
      have giga : toupper c = 71 ↔ c = 71 ∨ c = 103 :=
        toupper_eq_iff (by decide) (by decide)
      rw [suffixUnit, factor]
      simp only [kilo, mega, giga]
      split
      · rfl
      · split
        · rfl
        · split <;> rfl

theorem suffixUnit_short {rest : List UInt8} {unit : Nat}
    (known : suffixUnit rest = some unit) : rest.length ≤ 1 := by
  match rest, known with
  | [], _ => exact Nat.zero_le 1
  | [_], _ => exact Nat.le_refl 1

/-- No suffix starts with a digit. -/
theorem suffixUnit_head {rest : List UInt8} {unit : Nat}
    (known : suffixUnit rest = some unit) :
    rest.takeWhile isdigit = [] ∧ rest.dropWhile isdigit = rest := by
  match rest, known with
  | [], _ => exact ⟨rfl, rfl⟩
  | [c], known =>
      have letter : isdigit c = false := by
        rw [suffixUnit] at known
        split at known
        case isTrue kilo => rcases kilo with rfl | rfl <;> rfl
        case isFalse =>
          split at known
          case isTrue mega => rcases mega with rfl | rfl <;> rfl
          case isFalse =>
            split at known
            case isTrue giga => rcases giga with rfl | rfl <;> rfl
            case isFalse => cases known
      rw [List.takeWhile_cons, List.dropWhile_cons, letter]
      exact ⟨rfl, rfl⟩

theorem numeral_digits {digits suffix : List UInt8} {unit : Nat}
    (some : digits ≠ []) (every : ∀ c ∈ digits, isdigit c)
    (known : suffixUnit suffix = .some unit) :
    numeral (digits ++ suffix) = ⟨[], [], digits, suffix⟩ := by
  obtain ⟨nothing, all⟩ := suffixUnit_head known
  have taken : (digits ++ suffix).takeWhile isdigit = digits := by
    rw [List.takeWhile_append_of_pos every, nothing, List.append_nil]
  have dropped : (digits ++ suffix).dropWhile isdigit = suffix := by
    rw [List.dropWhile_append_of_pos every, all]
  obtain ⟨c, more, rfl⟩ := List.exists_cons_of_ne_nil some
  obtain ⟨dense, plus, minus⟩ := isdigit_spec (every c List.mem_cons_self)
  have unsigned : signOf (c :: more ++ suffix) = [] :=
    if_neg (not_or.2 ⟨plus, minus⟩)
  rw [List.cons_append] at taken dropped unsigned ⊢
  have whole :
      (c :: (more ++ suffix)).dropWhile isspace = c :: (more ++ suffix) := by
    rw [List.dropWhile_cons, dense]
    rfl
  rw [numeral, whole, unsigned]
  rw [List.length_nil, List.drop_zero, taken, dropped, List.takeWhile_cons,
    dense]
  rfl

theorem numeral_text {text : List UInt8}
    (blanks : (numeral text).blanks = []) (sign : (numeral text).sign = []) :
    text = (numeral text).digits ++ (numeral text).rest := by
  have dense : text.dropWhile isspace = text := by
    have parts := @List.takeWhile_append_dropWhile _ isspace text
    rwa [show text.takeWhile isspace = [] from blanks] at parts
  have unsigned : signOf text = [] := by
    have none : signOf (text.dropWhile isspace) = [] := sign
    rwa [dense] at none
  rw [numeral, dense, unsigned]
  exact List.takeWhile_append_dropWhile.symm

/-- A text of the grammar, by its parts. -/
theorem documented_iff {text : List UInt8} {product : Nat} :
    Documented text product ↔
      (numeral text).blanks = [] ∧ (numeral text).sign = [] ∧
        (numeral text).rest.length ≤ 1 ∧ (numeral text).digits ≠ [] ∧
          ∃ unit, factor (numeral text).rest = some unit ∧
            product = decimal (numeral text).digits * unit.toNat ∧
              product < 2 ^ 64 := by
  constructor
  · rintro ⟨digits, suffix, unit, rfl, some, every, known, value, fits⟩
    have short := suffixUnit_short known
    rw [numeral_digits some every known]
    rw [suffixUnit_eq short] at known
    obtain ⟨factorUnit, behind, rfl⟩ := Option.map_eq_some_iff.1 known
    exact ⟨rfl, rfl, short, some, factorUnit, behind, value, fits⟩
  · rintro ⟨blanks, sign, short, some, unit, behind, value, fits⟩
    refine
      ⟨(numeral text).digits, (numeral text).rest, unit.toNat,
        numeral_text blanks sign, some, ?_, ?_, value, fits⟩
    · intro c member
      exact List.mem_takeWhile_imp member
    · rw [suffixUnit_eq short, behind]
      rfl

/-- The product of such a text, once its unit is known. -/
theorem documented_product {text : List UInt8} {product : Nat}
    {unit : UInt64} (known : factor (numeral text).rest = some unit)
    (documented : Documented text product) :
    product = decimal (numeral text).digits * unit.toNat := by
  obtain ⟨-, -, -, -, other, behind, value, -⟩ :=
    documented_iff.1 documented
  rw [known] at behind
  rw [value, Option.some.inj behind]

/-- Nothing is lost where the product fits. -/
theorem value_mul_toNat {number : Numeral} {unit : UInt64}
    (known : factor number.rest = some unit) (sign : number.sign = [])
    (fits : decimal number.digits * unit.toNat < 2 ^ 64) :
    (number.value * unit).toNat = decimal number.digits * unit.toNat := by
  have positive : 0 < unit.toNat := by
    rcases factor_cases known with rfl | rfl | rfl | rfl <;> decide
  have small : decimal number.digits < 2 ^ 64 :=
    Nat.lt_of_le_of_lt (Nat.le_mul_of_pos_right _ positive) fits
  have unsigned : ¬ number.sign = [45] := by
    rw [sign]
    exact nofun
  rw [Numeral.value, if_neg (Nat.not_le.2 small), if_neg unsigned,
    UInt64.toNat_mul, UInt64.toNat_ofNat_of_lt' small,
    Nat.mod_eq_of_lt fits]

/--
A size is parsed as documented exactly when its text is of the grammar and
fits, or nothing comes out of it.
-/
theorem parseRamSize_documented_iff (text : CStr) :
    ParsesAsDocumented text ↔ Plain text.bytes := by
  rw [ParsesAsDocumented, parseRamSize_eq, Plain]
  by_cases empty : (numeral text.bytes).digits = []
  · rw [if_pos empty]
    refine iff_of_true ⟨?_, fun _ => rfl⟩ (Or.inl empty)
    intro product documented
    exact absurd empty (documented_iff.1 documented).2.2.2.1
  rw [if_neg empty, or_iff_right empty]
  cases known : factor (numeral text.bytes).rest with
  | none =>
      refine iff_of_true ⟨?_, fun _ => rfl⟩ nofun
      intro product documented
      obtain ⟨-, -, -, -, unit, behind, -⟩ := documented_iff.1 documented
      rw [known] at behind
      cases behind
  | some unit =>
      have zero := value_mul_eq_zero_iff (numeral text.bytes) known
      dsimp only
      constructor
      · rintro ⟨-, otherwise⟩ _ ⟨⟩
        by_cases grammar :
            (numeral text.bytes).blanks = [] ∧
              (numeral text.bytes).sign = [] ∧
                (numeral text.bytes).rest.length ≤ 1 ∧
                  decimal (numeral text.bytes).digits * unit.toNat < 2 ^ 64
        · exact Or.inr grammar
        · refine Or.inl (zero.1 (otherwise fun product documented => ?_))
          have value := documented_product known documented
          obtain ⟨blanks, sign, short, -, -, -, -, fits⟩ :=
            documented_iff.1 documented
          exact grammar ⟨blanks, sign, short, value ▸ fits⟩
      · intro plain
        rcases plain unit rfl with multiple | ⟨blanks, sign, short, fits⟩
        · have nothing := zero.2 multiple
          refine ⟨?_, fun _ => nothing⟩
          intro product documented
          have value := documented_product known documented
          obtain ⟨-, -, -, -, -, -, -, fits⟩ := documented_iff.1 documented
          rw [nothing, value]
          exact (Nat.eq_zero_of_dvd_of_lt multiple.2 (value ▸ fits)).symm
        · have whole := value_mul_toNat known sign fits
          constructor
          · intro product documented
            rw [whole, documented_product known documented]
          · intro never
            refine absurd ?_ (never (decimal (numeral text.bytes).digits *
              unit.toNat))
            exact
              documented_iff.2
                ⟨blanks, sign, short, empty, unit, known, rfl, fits⟩

/-- A minus sign in front of a number. -/
def minusFive : CStr :=
  ⟨[45, 53], by decide⟩

/-- The largest number less four comes out instead of nothing. -/
theorem minus_sign_accepted :
    parseRamSize (some minusFive) = .ofNat (2 ^ 64 - 5) ∧
      ¬ ParsesAsDocumented minusFive := by
  have value : parseRamSize (some minusFive) = .ofNat (2 ^ 64 - 5) := by
    decide
  refine ⟨value, fun right => ?_⟩
  have nothing := right.2 fun product documented =>
    absurd (documented_iff.1 documented).2.1 (by decide)
  rw [value] at nothing
  exact absurd nothing (by decide)

end Kemu.Init.RamSize
