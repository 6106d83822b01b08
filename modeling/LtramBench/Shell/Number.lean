import LtramBench.Shell.Fields
import Mathlib.Data.Rat.Floor
import Mathlib.Algebra.Order.Field.Rat

/-!
# Numbers in `awk`

A text used as a number stands for the longest decimal number at its front,
after blanks: an optional sign, digits, an optional fraction, an optional
exponent.  Arithmetic is exact.  `%d` drops the fraction, towards zero.
-/

namespace LtramBench.Shell

/-! ## Printing -/

/-- `%d` of a natural number. -/
def decimal (value : Nat) : Text :=
  Nat.toDigits 10 value

/-- The integer part that `%d` prints. -/
def truncate (value : ℚ) : Int :=
  value.num.tdiv value.den

/-- `%d` of an integer. -/
def printInt : Int → Text
  | .ofNat value => decimal value
  | .negSucc value => '-' :: decimal (value + 1)

/-- `%d`. -/
def percentD (value : ℚ) : Text :=
  printInt (truncate value)

/-- `%+d`. -/
def percentPlusD (value : ℚ) : Text :=
  if 0 ≤ truncate value then '+' :: percentD value else percentD value

/-- `%widthd` and `%widths`: blanks in front. -/
def padStart (width : Nat) (text : Text) : Text :=
  List.replicate (width - text.length) ' ' ++ text

/-- `%-widths`: blanks behind. -/
def padEnd (width : Nat) (text : Text) : Text :=
  text ++ List.replicate (width - text.length) ' '

@[simp]
theorem truncate_natCast (value : Nat) : truncate value = value := by
  simp [truncate]

@[simp]
theorem truncate_intCast (value : Int) : truncate value = value := by
  simp [truncate]

theorem truncate_neg (value : ℚ) : truncate (-value) = -truncate value := by
  simp [truncate]

theorem truncate_eq_floor {value : ℚ} (nonneg : 0 ≤ value) : truncate value = ⌊value⌋ := by
  rw [truncate, Int.tdiv_eq_ediv_of_nonneg (Rat.num_nonneg.mpr nonneg), Rat.floor_def']

@[simp]
theorem percentD_natCast (value : Nat) : percentD value = decimal value := by
  rw [percentD, truncate_natCast]
  rfl

/-- The integer part of a quotient is the truncated quotient. -/
theorem truncate_div (value : Int) (count : Nat) :
    truncate ((value : ℚ) / count) = value.tdiv count := by
  have natural : ∀ size : Nat, truncate ((size : ℚ) / count) = (size : Int).tdiv count := by
    intro size
    have nonneg : (0 : ℚ) ≤ (size : ℚ) / count :=
      div_nonneg (Nat.cast_nonneg size) (Nat.cast_nonneg count)
    rw [truncate_eq_floor nonneg, Rat.floor_natCast_div_natCast,
      Int.tdiv_eq_ediv_of_nonneg (Int.natCast_nonneg size)]
  obtain ⟨size, rfl | rfl⟩ := value.eq_nat_or_neg
  · exact natural size
  · rw [Int.cast_neg, Int.cast_natCast, neg_div, truncate_neg, natural, Int.neg_tdiv]

/-- `%d` of a quotient of natural numbers. -/
theorem percentD_div (sum count : Nat) : percentD ((sum : ℚ) / count) = decimal (sum / count) := by
  have quotient := truncate_div sum count
  rw [Int.cast_natCast] at quotient
  rw [percentD, quotient, Int.tdiv_eq_ediv_of_nonneg (Int.natCast_nonneg sum)]
  rfl

theorem isDigit_of_mem_decimal {value : Nat} {char : Char} (member : char ∈ decimal value) :
    char.isDigit = true :=
  Nat.isDigit_of_mem_toDigits (by decide) (by decide) member

theorem not_mem_decimal {char : Char} (other : char.isDigit = false) (value : Nat) :
    char ∉ decimal value := by
  intro member
  rw [isDigit_of_mem_decimal member] at other
  cases other

/-! ## Reading -/

/-- The number that a run of digits denotes. -/
def digitsValue (digits : Text) : Nat :=
  Nat.ofDigitChars 10 digits 0

/-- An optional sign, and whether it was a minus. -/
def readSign : Text → Bool × Text
  | '-' :: rest => (true, rest)
  | '+' :: rest => (false, rest)
  | text => (false, text)

/-- The exponent behind a mantissa. -/
def readExponent : Text → Int
  | 'e' :: rest | 'E' :: rest =>
      let digits := (readSign rest).2.takeWhile Char.isDigit
      if (readSign rest).1 then -(digitsValue digits : Int) else digitsValue digits
  | _ => 0

/-- The fraction behind the digits of a mantissa, and what follows it. -/
def readFraction : Text → Text × Text
  | '.' :: rest => (rest.takeWhile Char.isDigit, rest.dropWhile Char.isDigit)
  | text => ([], text)

def isBlank (char : Char) : Bool :=
  char = ' ' || char = '\t' || char = '\n'

/-- What passes a test that every blank fails is not blank. -/
theorem isBlank_eq_false_of {test : Char → Bool} (space : test ' ' = false)
    (tab : test '\t' = false) (newline : test '\n' = false) {char : Char}
    (passes : test char = true) : isBlank char = false := by
  by_contra blank
  simp only [isBlank, Bool.not_eq_false, Bool.or_eq_true, decide_eq_true_eq] at blank
  rcases blank with (rfl | rfl) | rfl
  · exact absurd passes (by simp [space])
  · exact absurd passes (by simp [tab])
  · exact absurd passes (by simp [newline])

theorem isBlank_of_isDigit {char : Char} (digit : char.isDigit = true) : isBlank char = false :=
  isBlank_eq_false_of rfl rfl rfl digit

/-- A number without its sign. -/
def readUnsigned (text : Text) : ℚ :=
  let whole := text.takeWhile Char.isDigit
  let fraction := readFraction (text.dropWhile Char.isDigit)
  (digitsValue whole + digitsValue fraction.1 / 10 ^ fraction.1.length) *
    10 ^ readExponent fraction.2

/-- The numeric value of a text. -/
def number (text : Text) : ℚ :=
  let signed := readSign (text.dropWhile isBlank)
  if signed.1 then -readUnsigned signed.2 else readUnsigned signed.2

@[simp]
theorem number_nil : number [] = 0 := by
  simp [number, readSign, readUnsigned, readFraction, readExponent, digitsValue]

/-- What may follow a natural number without changing it. -/
def EndsNatural (rest : Text) : Prop :=
  ∀ char ∈ rest.head?, char.isDigit = false ∧ char ≠ '.' ∧ char ≠ 'e' ∧ char ≠ 'E'

theorem takeWhile_decimal {value : Nat} {rest : Text} (ends : EndsNatural rest) :
    (decimal value ++ rest).takeWhile Char.isDigit = decimal value := by
  rw [List.takeWhile_append_of_pos fun char member => isDigit_of_mem_decimal member]
  cases rest with
  | nil => simp
  | cons char rest => simp [(ends char rfl).1]

theorem dropWhile_decimal {value : Nat} {rest : Text} (ends : EndsNatural rest) :
    (decimal value ++ rest).dropWhile Char.isDigit = rest := by
  rw [List.dropWhile_append_of_pos fun char member => isDigit_of_mem_decimal member]
  cases rest with
  | nil => rfl
  | cons char rest => simp [(ends char rfl).1]

theorem readFraction_ends {rest : Text} (ends : EndsNatural rest) :
    readFraction rest = ([], rest) := by
  unfold readFraction
  split
  · exact absurd rfl (ends _ rfl).2.1
  · rfl

theorem readExponent_ends {rest : Text} (ends : EndsNatural rest) : readExponent rest = 0 := by
  unfold readExponent
  split
  · exact absurd rfl (ends _ rfl).2.2.1
  · exact absurd rfl (ends _ rfl).2.2.2
  · rfl

theorem exists_decimal_eq_cons (value : Nat) :
    ∃ first others, decimal value = first :: others ∧ first.isDigit = true := by
  obtain ⟨first, others, digits⟩ :=
    List.exists_cons_of_ne_nil (show decimal value ≠ [] from Nat.toDigits_ne_nil)
  exact ⟨first, others, digits, isDigit_of_mem_decimal (digits ▸ List.mem_cons_self)⟩

theorem dropWhile_isBlank_decimal (blanks value : Nat) (rest : Text) :
    (List.replicate blanks ' ' ++ (decimal value ++ rest)).dropWhile isBlank =
      decimal value ++ rest := by
  obtain ⟨first, others, digits, isDigit⟩ := exists_decimal_eq_cons value
  rw [List.dropWhile_append_of_pos (by simp [isBlank]), digits, List.cons_append,
    List.dropWhile_cons_of_neg (by simp [isBlank_of_isDigit isDigit])]

theorem readSign_decimal (value : Nat) (rest : Text) :
    readSign (decimal value ++ rest) = (false, decimal value ++ rest) := by
  obtain ⟨first, others, digits, isDigit⟩ := exists_decimal_eq_cons value
  rw [digits, List.cons_append]
  unfold readSign
  split
  · rename_i minus
    cases minus
    cases isDigit
  · rename_i plus
    cases plus
    cases isDigit
  · rfl

theorem readUnsigned_decimal {value : Nat} {rest : Text} (ends : EndsNatural rest) :
    readUnsigned (decimal value ++ rest) = value := by
  rw [readUnsigned, takeWhile_decimal ends, dropWhile_decimal ends, readFraction_ends ends]
  simp [digitsValue, decimal, readExponent_ends ends]

/-- A natural number is read back from its decimal text, whatever blanks come
before it and whatever stops it. -/
theorem number_decimal {value : Nat} {rest : Text} (ends : EndsNatural rest) (blanks : Nat) :
    number (List.replicate blanks ' ' ++ (decimal value ++ rest)) = value := by
  rw [number, dropWhile_isBlank_decimal, readSign_decimal]
  exact readUnsigned_decimal ends

theorem endsNatural_nil : EndsNatural [] :=
  nofun

@[simp]
theorem number_decimal_self (value : Nat) : number (decimal value) = value := by
  simpa using number_decimal endsNatural_nil 0

theorem readUnsigned_decimal_self (value : Nat) : readUnsigned (decimal value) = value := by
  simpa using readUnsigned_decimal endsNatural_nil

/-- What `%+d` prints is read back. -/
@[simp]
theorem number_percentPlusD (value : ℚ) : number (percentPlusD value) = truncate value := by
  have plus : isBlank '+' = false := by decide
  have minus : isBlank '-' = false := by decide
  rw [percentPlusD, percentD]
  cases truncate value with
  | ofNat size => simp [number, printInt, readSign, plus, readUnsigned_decimal_self]
  | negSucc size => simp [number, printInt, readSign, minus, readUnsigned_decimal_self]

theorem decimal_injective : Function.Injective decimal := by
  intro first second same
  have values := congrArg number same
  simpa using values

theorem printInt_injective : Function.Injective printInt := by
  intro first second same
  cases first with
  | ofNat first =>
      cases second with
      | ofNat second => exact congrArg Int.ofNat (decimal_injective same)
      | negSucc second =>
          have minus : '-' ∈ decimal first := by
            rw [show decimal first = _ from same]
            exact List.mem_cons_self
          exact absurd minus (not_mem_decimal rfl first)
  | negSucc first =>
      cases second with
      | ofNat second =>
          have minus : '-' ∈ decimal second := by
            rw [← show _ = decimal second from same]
            exact List.mem_cons_self
          exact absurd minus (not_mem_decimal rfl second)
      | negSucc second =>
          have values := decimal_injective (List.tail_eq_of_cons_eq same)
          exact congrArg Int.negSucc (Nat.succ.inj values)

/-- `%d` prints two numbers alike exactly when their integer parts agree. -/
theorem percentD_eq_iff (first second : ℚ) :
    percentD first = percentD second ↔ truncate first = truncate second :=
  printInt_injective.eq_iff

end LtramBench.Shell
