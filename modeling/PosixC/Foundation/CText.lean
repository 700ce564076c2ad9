import Mathlib.Data.List.TakeWhile
import Mathlib.Data.Nat.Digits.Lemmas
import Mathlib.Tactic.IntervalCases
import PosixC.Foundation.CInt

/-! The text functions of the C library, on bytes and in the C locale.

A string is the list of its bytes before the terminating NUL.
-/

set_option autoImplicit false

namespace PosixC.Foundation.CText

abbrev Bytes := List UInt8

section Lines

def newline : UInt8 := 10

def cString (buffer : Bytes) : Bytes := buffer.takeWhile (· ≠ 0)

theorem cString_self {buffer : Bytes} (terminated : 0 ∉ buffer) : cString buffer = buffer := by
  apply List.takeWhile_eq_self_iff.mpr
  intro byte member
  have nonzero : byte ≠ 0 := fun zero => terminated (zero ▸ member)
  simpa using nonzero

/-- The next line with its newline, and what is left of the stream. -/
def getline : Bytes → Option (Bytes × Bytes)
  | [] => none
  | byte :: rest =>
      if byte = newline then some ([byte], rest)
      else
        match getline rest with
        | none => some ([byte], [])
        | some (line, left) => some (byte :: line, left)

def lines : Bytes → List Bytes
  | [] => []
  | byte :: rest =>
      if byte = newline then [byte] :: lines rest
      else
        match lines rest with
        | [] => [[byte]]
        | line :: more => (byte :: line) :: more

theorem lines_eq_getline (text : Bytes) :
    lines text = match getline text with
      | none => []
      | some (line, rest) => line :: lines rest := by
  induction text with
  | nil => rfl
  | cons byte rest ih =>
    by_cases ends : byte = newline
    · simp only [lines, getline, if_pos ends]
    · simp only [lines, getline, if_neg ends]
      cases next : getline rest with
      | none =>
        rw [next] at ih
        simp only [ih, lines]
      | some found =>
        obtain ⟨line, left⟩ := found
        rw [next] at ih
        simp only [ih]

/-- A line that ends in a newline is read as it was written. -/
theorem lines_append (line rest : Bytes) (single : newline ∉ line) :
    lines (line ++ newline :: rest) = (line ++ [newline]) :: lines rest := by
  induction line with
  | nil => simp [lines]
  | cons byte line ih =>
    have inner : byte ≠ newline := fun same => single (same ▸ List.mem_cons_self)
    rw [List.cons_append, lines, if_neg inner, ih fun member => single (List.mem_cons_of_mem _ member)]
    rfl

theorem flatten_lines (text : Bytes) : (lines text).flatten = text := by
  induction text with
  | nil => rfl
  | cons byte rest ih =>
    unfold lines
    split
    · rw [List.flatten_cons, ih]
      rfl
    · split
      · next empty =>
        rw [empty] at ih
        rw [← ih]
        rfl
      · next line more found =>
        rw [found] at ih
        rw [← ih]
        rfl

theorem line_shape {text line : Bytes} (member : line ∈ lines text) :
    ∃ body, newline ∉ body ∧ (line = body ++ [newline] ∨ (line = body ∧ body ≠ [])) := by
  induction text generalizing line with
  | nil => cases member
  | cons byte rest ih =>
    unfold lines at member
    split at member
    · next ends =>
      rcases List.mem_cons.mp member with rfl | later
      · exact ⟨[], List.not_mem_nil, Or.inl (by rw [ends]; rfl)⟩
      · exact ih later
    · next inner =>
      have outside : ∀ {body : Bytes}, newline ∉ body → newline ∉ byte :: body := by
        intro body clean again
        rcases List.mem_cons.mp again with same | below
        · exact inner same.symm
        · exact clean below
      -- The byte is put in front of the first line of the rest, if there is one.
      split at member
      · obtain rfl := List.mem_singleton.mp member
        exact ⟨[byte], outside List.not_mem_nil, Or.inr ⟨rfl, List.cons_ne_nil _ _⟩⟩
      · next first more found =>
        rcases List.mem_cons.mp member with rfl | later
        · obtain ⟨body, clean, shape⟩ := ih (found ▸ List.mem_cons_self)
          refine ⟨byte :: body, outside clean, ?_⟩
          rcases shape with rfl | ⟨rfl, _⟩
          · exact Or.inl rfl
          · exact Or.inr ⟨rfl, List.cons_ne_nil _ _⟩
        · exact ih (found ▸ List.mem_cons_of_mem _ later)

theorem line_newline {text first rest : Bytes} (member : first ++ newline :: rest ∈ lines text) : rest = [] := by
  obtain ⟨body, clean, shape⟩ := line_shape member
  rcases List.eq_nil_or_concat rest with rfl | ⟨init, last, rfl⟩
  · rfl
  · have inside : newline ∈ body := by
      rcases shape with shape | ⟨shape, _⟩
      · have split : (first ++ newline :: init) ++ [last] = body ++ [newline] := by simpa using shape
        rw [← (List.append_inj' split rfl).1]
        simp
      · rw [← shape]
        simp
    exact absurd inside clean

theorem mem_of_mem_lines {text line : Bytes} (member : line ∈ lines text) {byte : UInt8} (inside : byte ∈ line) :
    byte ∈ text :=
  flatten_lines text ▸ List.mem_flatten.mpr ⟨line, member, inside⟩

end Lines

section Tokens

/-- The next token of a string, `none` for NULL, and the string the following
call continues with. -/
def strtok (delimiters : Bytes) (string : Bytes) : Option Bytes × Bytes :=
  match string.dropWhile (· ∈ delimiters) with
  | [] => (none, [])
  | found => (some (found.takeWhile (· ∉ delimiters)), (found.dropWhile (· ∉ delimiters)).drop 1)

variable {delimiters skipped token tail string rest : Bytes}

theorem takeWhile_stop {p : UInt8 → Bool} (stops : ∀ b, tail.head? = some b → p b = false) :
    tail.takeWhile p = [] ∧ tail.dropWhile p = tail := by
  cases tail with
  | nil => exact ⟨rfl, rfl⟩
  | cons stop more =>
    have stop := stops stop rfl
    exact ⟨List.takeWhile_cons_of_neg (by simp [stop]), List.dropWhile_cons_of_neg (by simp [stop])⟩

/-- A token after delimiters is found, and one delimiter after it is consumed. -/
theorem strtok_append (skips : ∀ b ∈ skipped, b ∈ delimiters) (filled : token ≠ [])
    (plain : ∀ b ∈ token, b ∉ delimiters) (stops : ∀ b, tail.head? = some b → b ∈ delimiters) :
    strtok delimiters (skipped ++ token ++ tail) = (some token, tail.drop 1) := by
  obtain ⟨first, others, rfl⟩ := List.exists_cons_of_ne_nil filled
  have start : (skipped ++ (first :: others) ++ tail).dropWhile (· ∈ delimiters) = first :: others ++ tail := by
    rw [List.append_assoc, List.dropWhile_append_of_pos (by simpa using skips)]
    exact List.dropWhile_cons_of_neg (by simpa using plain first List.mem_cons_self)
  -- The token ends where the tail begins: at a delimiter or at the end of the string.
  have none : tail.takeWhile (· ∉ delimiters) = [] ∧ tail.dropWhile (· ∉ delimiters) = tail :=
    takeWhile_stop fun b first => by simpa using stops b first
  unfold strtok
  rw [start, List.cons_append]
  simp only
  rw [← List.cons_append, List.takeWhile_append_of_pos (by simpa using plain),
    List.dropWhile_append_of_pos (by simpa using plain), none.1, none.2, List.append_nil]

theorem strtok_some (found : strtok delimiters string = (some token, rest)) :
    ∃ skipped tail, string = skipped ++ token ++ tail ∧ (∀ b ∈ skipped, b ∈ delimiters) ∧ token ≠ [] ∧
      (∀ b ∈ token, b ∉ delimiters) ∧ (∀ b, tail.head? = some b → b ∈ delimiters) ∧ rest = tail.drop 1 := by
  unfold strtok at found
  split at found
  · cases found
  next some =>
    simp only [Prod.mk.injEq, Option.some.injEq] at found
    obtain ⟨rfl, rfl⟩ := found
    set left := string.dropWhile (· ∈ delimiters) with left_eq
    refine ⟨string.takeWhile (· ∈ delimiters), left.dropWhile (· ∉ delimiters), ?_, ?_, ?_, ?_, ?_, rfl⟩
    · rw [List.append_assoc, List.takeWhile_append_dropWhile, left_eq, List.takeWhile_append_dropWhile]
    · intro b member
      simpa using List.mem_takeWhile_imp member
    · obtain ⟨first, others, shape⟩ := List.exists_cons_of_ne_nil some
      have head := List.head?_dropWhile_not (· ∈ delimiters) string
      rw [← left_eq, shape] at head
      have plain : first ∉ delimiters := by simpa using head
      rw [shape, List.takeWhile_cons_of_pos (by simpa using plain)]
      exact List.cons_ne_nil _ _
    · intro b member
      simpa using List.mem_takeWhile_imp member
    · intro b first
      have head := List.head?_dropWhile_not (· ∉ delimiters) left
      rw [first] at head
      simpa using head

end Tokens

section Numbers

def isspace (byte : UInt8) : Bool := byte.toNat = 32 ∨ (9 ≤ byte.toNat ∧ byte.toNat ≤ 13)

def hexDigitValue (byte : UInt8) : Option Nat :=
  if 48 ≤ byte.toNat ∧ byte.toNat ≤ 57 then some (byte.toNat - 48)
  else if 97 ≤ byte.toNat ∧ byte.toNat ≤ 102 then some (byte.toNat - 87)
  else if 65 ≤ byte.toNat ∧ byte.toNat ≤ 70 then some (byte.toNat - 55)
  else none

def isxdigit (byte : UInt8) : Bool := (hexDigitValue byte).isSome

def hexValue (digits : Bytes) : Nat :=
  digits.foldl (fun value byte => value * 16 + (hexDigitValue byte).getD 0) 0

def takeSign : Bytes → Bool × Bytes
  | 45 :: rest => (true, rest)
  | 43 :: rest => (false, rest)
  | string => (false, string)

/-- `0x` is a prefix only in front of a digit. -/
def skipBase : Bytes → Bytes
  | 48 :: mark :: digit :: rest =>
      if (mark = 120 ∨ mark = 88) ∧ isxdigit digit = true then digit :: rest else 48 :: mark :: digit :: rest
  | string => string

def toULongLong (negative : Bool) (value : Nat) : Nat :=
  if 2 ^ 64 ≤ value then 2 ^ 64 - 1 else if negative then (2 ^ 64 - value) % 2 ^ 64 else value

/-- `strtoull` with base 16: the value and the string at `endptr`. -/
def strtoull16 (nptr : Bytes) : Nat × Bytes :=
  let (negative, unsigned) := takeSign (nptr.dropWhile isspace)
  let digits := (skipBase unsigned).takeWhile isxdigit
  if digits = [] then (0, nptr)
  else (toULongLong negative (hexValue digits), (skipBase unsigned).dropWhile isxdigit)

/-- The numerals `strtoull` reads to their end. -/
structure Numeral (string blank sign mark digits : Bytes) : Prop where
  shape : string = blank ++ (sign ++ (mark ++ digits))
  blank : ∀ b ∈ blank, isspace b = true
  sign : sign = [] ∨ sign = [43] ∨ sign = [45]
  mark : mark = [] ∨ mark = [48, 120] ∨ mark = [48, 88]
  filled : digits ≠ []
  digits : ∀ b ∈ digits, isxdigit b = true

theorem isxdigit_not_special {byte : UInt8} (digit : isxdigit byte = true) :
    isspace byte = false ∧ byte ≠ 43 ∧ byte ≠ 45 ∧ byte ≠ 120 ∧ byte ≠ 88 := by
  have ranges : (48 ≤ byte.toNat ∧ byte.toNat ≤ 57) ∨ (97 ≤ byte.toNat ∧ byte.toNat ≤ 102) ∨
      (65 ≤ byte.toNat ∧ byte.toNat ≤ 70) := by
    unfold isxdigit hexDigitValue at digit
    split at digit
    · exact Or.inl ‹_›
    split at digit
    · exact Or.inr (Or.inl ‹_›)
    split at digit
    · exact Or.inr (Or.inr ‹_›)
    · cases digit
  refine ⟨?_, ?_⟩
  · simp only [isspace, decide_eq_false_iff_not]
    omega
  · refine ⟨?_, ?_, ?_, ?_⟩ <;>
    · rintro rfl
      revert ranges
      decide

theorem skipBase_digits {digits : Bytes} (hex : ∀ b ∈ digits, isxdigit b = true) : skipBase digits = digits := by
  unfold skipBase
  split
  · next mark digit rest =>
    have special := isxdigit_not_special (hex mark (by simp))
    rw [if_neg]
    exact fun both => both.1.elim special.2.2.2.1 special.2.2.2.2
  · rfl

theorem skipBase_mark {mark digits : Bytes} (marks : mark = [] ∨ mark = [48, 120] ∨ mark = [48, 88])
    (filled : digits ≠ []) (hex : ∀ b ∈ digits, isxdigit b = true) : skipBase (mark ++ digits) = digits := by
  obtain ⟨first, others, rfl⟩ := List.exists_cons_of_ne_nil filled
  have digit := hex first List.mem_cons_self
  rcases marks with rfl | rfl | rfl
  · exact skipBase_digits hex
  · simp [skipBase, digit]
  · simp [skipBase, digit]

theorem takeSign_append {sign : Bytes} {first : UInt8} {rest : Bytes} (signs : sign = [] ∨ sign = [43] ∨ sign = [45])
    (digit : isxdigit first = true) : takeSign (sign ++ first :: rest) = (decide (sign = [45]), first :: rest) := by
  have special := isxdigit_not_special digit
  rcases signs with rfl | rfl | rfl
  · unfold takeSign
    split
    · next same => exact absurd (List.cons.inj same).1 special.2.2.1
    · next same => exact absurd (List.cons.inj same).1 special.2.1
    · rfl
  · rfl
  · rfl

/-- White space ends at the sign, or at the first digit. -/
theorem dropWhile_isspace {blank sign : Bytes} {first : UInt8} {rest : Bytes} (blanks : ∀ b ∈ blank, isspace b = true)
    (signs : sign = [] ∨ sign = [43] ∨ sign = [45]) (digit : isxdigit first = true) :
    (blank ++ (sign ++ first :: rest)).dropWhile isspace = sign ++ first :: rest := by
  rw [List.dropWhile_append_of_pos blanks]
  rcases signs with rfl | rfl | rfl
  · exact List.dropWhile_cons_of_neg (by simp [(isxdigit_not_special digit).1])
  · exact List.dropWhile_cons_of_neg (by decide)
  · exact List.dropWhile_cons_of_neg (by decide)

theorem marked_head {mark digits : Bytes} (marks : mark = [] ∨ mark = [48, 120] ∨ mark = [48, 88])
    (filled : digits ≠ []) (hex : ∀ b ∈ digits, isxdigit b = true) :
    ∃ first rest, mark ++ digits = first :: rest ∧ isxdigit first = true := by
  obtain ⟨first, others, rfl⟩ := List.exists_cons_of_ne_nil filled
  rcases marks with rfl | rfl | rfl
  · exact ⟨_, _, rfl, hex _ List.mem_cons_self⟩
  · exact ⟨_, _, rfl, by decide⟩
  · exact ⟨_, _, rfl, by decide⟩

theorem strtoull16_numeral {string blank sign mark digits : Bytes}
    (numeral : Numeral string blank sign mark digits) :
    strtoull16 string = (toULongLong (sign = [45]) (hexValue digits), []) := by
  obtain ⟨rfl, blanks, signs, marks, filled, hex⟩ := numeral
  obtain ⟨first, rest, start, digit⟩ := marked_head marks filled hex
  unfold strtoull16
  rw [start, dropWhile_isspace blanks signs digit, takeSign_append signs digit, ← start]
  simp only [skipBase_mark marks filled hex, List.takeWhile_eq_self_iff.mpr hex, List.dropWhile_eq_nil_iff.mpr hex,
    if_neg filled]

theorem takeSign_cases (string : Bytes) :
    ∃ sign, (sign = [] ∨ sign = [43] ∨ sign = [45]) ∧ string = sign ++ (takeSign string).2 := by
  unfold takeSign
  split
  · exact ⟨[45], Or.inr (Or.inr rfl), rfl⟩
  · exact ⟨[43], Or.inr (Or.inl rfl), rfl⟩
  · exact ⟨[], Or.inl rfl, rfl⟩

theorem skipBase_cases (string : Bytes) :
    ∃ mark, (mark = [] ∨ mark = [48, 120] ∨ mark = [48, 88]) ∧ string = mark ++ skipBase string := by
  unfold skipBase
  split
  · split
    · next both =>
      rcases both.1 with rfl | rfl
      · exact ⟨[48, 120], Or.inr (Or.inl rfl), rfl⟩
      · exact ⟨[48, 88], Or.inr (Or.inr rfl), rfl⟩
    · exact ⟨[], Or.inl rfl, rfl⟩
  · exact ⟨[], Or.inl rfl, rfl⟩

theorem numeral_of_strtoull16 {string : Bytes} (filled : string ≠ []) (whole : (strtoull16 string).2 = []) :
    ∃ blank sign mark digits, Numeral string blank sign mark digits := by
  obtain ⟨sign, signs, unsigned⟩ := takeSign_cases (string.dropWhile isspace)
  obtain ⟨mark, marks, digits⟩ := skipBase_cases (takeSign (string.dropWhile isspace)).2
  simp only [strtoull16] at whole
  split at whole
  · exact absurd whole filled
  next some =>
    have hex := List.dropWhile_eq_nil_iff.mp whole
    refine ⟨string.takeWhile isspace, sign, mark, _, ?_, ?_, signs, marks, ?_, hex⟩
    · rw [← digits, ← unsigned, List.takeWhile_append_dropWhile]
    · exact fun b member => List.mem_takeWhile_imp member
    · intro empty
      exact some (by rw [empty]; rfl)

/-- A numeral without white space and sign can be read in one way only. -/
theorem Numeral.plain_unique {string blank sign mark digits mark' digits' : Bytes}
    (numeral : Numeral string blank sign mark digits) (plain : Numeral string [] [] mark' digits') :
    blank = [] ∧ sign = [] ∧ digits = digits' := by
  obtain ⟨first, rest, start, digit⟩ := marked_head plain.mark plain.filled plain.digits
  have special := isxdigit_not_special digit
  have shape : blank ++ (sign ++ (mark ++ digits)) = first :: rest :=
    numeral.shape.symm.trans (plain.shape.trans start)
  have unblanked : blank = [] := by
    rcases blank with _ | ⟨b, more⟩
    · rfl
    · have space := numeral.blank b List.mem_cons_self
      rw [(List.cons.inj shape).1, special.1] at space
      cases space
  subst unblanked
  have unsigned : sign = [] := by
    rcases numeral.sign with empty | rfl | rfl
    · exact empty
    · exact absurd (List.cons.inj shape).1.symm special.2.1
    · exact absurd (List.cons.inj shape).1.symm special.2.2.1
  subst unsigned
  refine ⟨rfl, rfl, ?_⟩
  have same : mark ++ digits = mark' ++ digits' := shape.trans start.symm
  rw [← skipBase_mark numeral.mark numeral.filled numeral.digits, same,
    skipBase_mark plain.mark plain.filled plain.digits]

def isdigit (byte : UInt8) : Bool := 48 ≤ byte.toNat ∧ byte.toNat ≤ 57

def decimalValue (digits : Bytes) : Nat := digits.foldl (fun value byte => value * 10 + (byte.toNat - 48)) 0

def signed (negative : Bool) (value : Nat) : Int := if negative then -value else value

def saturate (value : Int) : Int := if value < longMin then longMin else if longMax < value then longMax else value

/-- `strtol` with base 10: the value and the string at `endptr`. -/
def strtol10 (nptr : Bytes) : Int × Bytes :=
  let (negative, unsigned) := takeSign (nptr.dropWhile isspace)
  let digits := unsigned.takeWhile isdigit
  if digits = [] then (0, nptr)
  else (saturate (signed negative (decimalValue digits)), unsigned.dropWhile isdigit)

/-- What is read is stored in an `int`. -/
def strtolInt (nptr : Bytes) : Int := toInt (strtol10 nptr).1

theorem strtolInt_isInt (nptr : Bytes) : IsInt (strtolInt nptr) := toInt_range _

structure Decimal (string blank sign digits rest : Bytes) : Prop where
  shape : string = blank ++ (sign ++ (digits ++ rest))
  blank : ∀ b ∈ blank, isspace b = true
  sign : sign = [] ∨ sign = [43] ∨ sign = [45]
  filled : digits ≠ []
  digits : ∀ b ∈ digits, isdigit b = true
  stops : ∀ b, rest.head? = some b → isdigit b = false

def DecimalInteger (string : Bytes) (value : Int) : Prop :=
  ∃ blank sign digits, Decimal string blank sign digits [] ∧ value = signed (sign = [45]) (decimalValue digits)

theorem isxdigit_of_isdigit {byte : UInt8} (digit : isdigit byte = true) : isxdigit byte = true := by
  simp only [isdigit, decide_eq_true_eq] at digit
  simp [isxdigit, hexDigitValue, digit]

theorem Decimal.shorter {string blank sign digits rest : Bytes} (decimal : Decimal string blank sign digits rest) :
    rest.length < string.length := by
  have filled := List.length_pos_iff.mpr decimal.filled
  rw [decimal.shape]
  simp only [List.length_append]
  omega

theorem takeSign_decimal {string blank sign digits rest : Bytes} (decimal : Decimal string blank sign digits rest) :
    takeSign (string.dropWhile isspace) = (decide (sign = [45]), digits ++ rest) := by
  obtain ⟨rfl, blanks, signs, filled, decimals, _⟩ := decimal
  obtain ⟨first, others, rfl⟩ := List.exists_cons_of_ne_nil filled
  have digit := isxdigit_of_isdigit (decimals first List.mem_cons_self)
  rw [List.cons_append, dropWhile_isspace blanks signs digit, takeSign_append signs digit]

theorem strtol10_decimal {string blank sign digits rest : Bytes} (decimal : Decimal string blank sign digits rest) :
    strtol10 string = (saturate (signed (sign = [45]) (decimalValue digits)), rest) := by
  have none := takeWhile_stop decimal.stops
  unfold strtol10
  rw [takeSign_decimal decimal]
  simp only
  rw [List.takeWhile_append_of_pos decimal.digits, List.dropWhile_append_of_pos decimal.digits, none.1, none.2,
    List.append_nil, if_neg decimal.filled]

theorem decimalInteger_unique {string : Bytes} {value other : Int} (number : DecimalInteger string value)
    (number' : DecimalInteger string other) : value = other := by
  obtain ⟨_, sign, digits, decimal, rfl⟩ := number
  obtain ⟨_, sign', digits', decimal', rfl⟩ := number'
  have same := (takeSign_decimal decimal).symm.trans (takeSign_decimal decimal')
  simp only [List.append_nil, Prod.mk.injEq] at same
  rw [same.1, same.2]

/-- What is read is a number at the start of the string. -/
theorem decimal_of_strtol10 {string : Bytes} (moved : (strtol10 string).2 ≠ string) :
    ∃ blank sign digits, Decimal string blank sign digits (strtol10 string).2 := by
  obtain ⟨sign, signs, unsigned⟩ := takeSign_cases (string.dropWhile isspace)
  simp only [strtol10] at moved ⊢
  split at moved
  · exact absurd rfl moved
  next some =>
    rw [if_neg some]
    refine ⟨string.takeWhile isspace, sign, _, ?_, fun b => List.mem_takeWhile_imp, signs, some,
      fun b => List.mem_takeWhile_imp, fun b first => ?_⟩
    · rw [List.takeWhile_append_dropWhile, ← unsigned, List.takeWhile_append_dropWhile]
    · have head := List.head?_dropWhile_not isdigit (takeSign (string.dropWhile isspace)).2
      rw [first] at head
      simpa using head

def digitChar (digit : Nat) : UInt8 := if digit < 10 then UInt8.ofNat (48 + digit) else UInt8.ofNat (87 + digit)

def numeral (base value : Nat) : Bytes :=
  if value = 0 then [48] else (Nat.digits base value).reverse.map digitChar

def zeroPadded (width : Nat) (text : Bytes) : Bytes := List.replicate (width - text.length) 48 ++ text

theorem hexDigitValue_digitChar {digit : Nat} (small : digit < 16) : hexDigitValue (digitChar digit) = some digit := by
  interval_cases digit <;> decide

theorem isxdigit_numeral {value : Nat} {byte : UInt8} (member : byte ∈ numeral 16 value) : isxdigit byte = true := by
  unfold numeral at member
  split at member
  · rw [List.mem_singleton.mp member]
    decide
  · obtain ⟨digit, among, rfl⟩ := List.mem_map.mp member
    have small := Nat.digits_lt_base (by omega) (List.mem_reverse.mp among)
    simp [isxdigit, hexDigitValue_digitChar small]

theorem foldl_numeral {base : Nat} {digitOf : UInt8 → Nat} (large : 1 < base)
    (read : ∀ digit < base, digitOf (digitChar digit) = digit) (value : Nat) :
    (numeral base value).foldl (fun value byte => value * base + digitOf byte) 0 = value := by
  unfold numeral
  split
  · next zero =>
    have first : digitOf 48 = 0 := read 0 (by omega)
    simp only [List.foldl_cons, List.foldl_nil, first, zero]
    omega
  -- Digits are printed from the highest one on, and `Nat.digits` starts with the lowest.
  · have digits : ∀ list : List Nat, (∀ d ∈ list, d < base) →
        (list.reverse.map digitChar).foldl (fun value byte => value * base + digitOf byte) 0 = Nat.ofDigits base list := by
      intro list small
      induction list with
      | nil => rfl
      | cons digit rest ih =>
        have below := ih fun d member => small d (List.mem_cons_of_mem _ member)
        rw [List.reverse_cons, List.map_append, List.foldl_append, below, Nat.ofDigits_cons]
        simp only [List.map_cons, List.map_nil, List.foldl_cons, List.foldl_nil,
          read digit (small digit List.mem_cons_self), Nat.mul_comm base]
        exact Nat.add_comm _ _
    rw [digits _ fun d member => Nat.digits_lt_base large member, Nat.ofDigits_digits]

theorem hexValue_numeral (value : Nat) : hexValue (numeral 16 value) = value :=
  foldl_numeral (by decide) (fun _ small => by rw [hexDigitValue_digitChar small, Option.getD_some]) value

theorem hexValue_zeroPadded (width : Nat) (text : Bytes) : hexValue (zeroPadded width text) = hexValue text := by
  unfold zeroPadded hexValue
  rw [List.foldl_append]
  congr 1
  induction width - text.length with
  | zero => rfl
  | succ count ih =>
    rw [List.replicate_succ', List.foldl_append, ih]
    decide

theorem isxdigit_zeroPadded {width : Nat} {text : Bytes} (hex : ∀ b ∈ text, isxdigit b = true) :
    ∀ b ∈ zeroPadded width text, isxdigit b = true := by
  intro b member
  rcases List.mem_append.mp member with padding | inside
  · rw [List.eq_of_mem_replicate padding]
    decide
  · exact hex b inside

theorem numeral_ne_nil {base value : Nat} : numeral base value ≠ [] := by
  unfold numeral
  split
  · exact List.cons_ne_nil _ _
  · next positive => simpa using Nat.digits_ne_nil_iff_ne_zero.mpr positive

theorem zeroPadded_ne_nil {width : Nat} {text : Bytes} (filled : text ≠ []) : zeroPadded width text ≠ [] := by
  unfold zeroPadded
  simp [filled]

end Numbers

end PosixC.Foundation.CText
