import PosixC.Crc.RoundTrip

/-! What `crc32check` accepts.

A line should pass when its hash field is a hexadecimal numeral with the value of
the file's CRC-32. The code reads the field with `strtoull` and keeps 32 bits of
the result, which lets some other fields through.
-/

set_option autoImplicit false

namespace PosixC.Crc

open Foundation CText

section Fields

structure Fields (line hash name : Bytes) : Prop where
  hash_filled : hash ≠ []
  hash_plain : ∀ b ∈ hash, b ≠ 32 ∧ b ≠ newline
  name_filled : name ≠ []
  name_plain : ∀ b ∈ name, b ≠ newline
  shape : ∃ blanks ending, (∀ b ∈ blanks, b = 32) ∧ (ending = [] ∨ ending = [newline]) ∧
    line = blanks ++ hash ++ 32 :: (name ++ ending)

def split (line : Bytes) : Option Bytes × Option Bytes :=
  ((strtok (ascii " \n") line).1, (strtok (ascii "\n") (strtok (ascii " \n") line).2).1)

theorem mem_delimiters {byte : UInt8} : byte ∈ ascii " \n" ↔ byte = 32 ∨ byte = newline := by
  simp [ascii, newline]

theorem mem_delimiter {byte : UInt8} : byte ∈ ascii "\n" ↔ byte = newline := by
  simp [ascii, newline]

theorem split_of_fields {line hash name : Bytes} (fields : Fields line hash name) :
    split line = (some hash, some name) := by
  obtain ⟨filled, plain, named, single, blanks, ending, blank, ends, rfl⟩ := fields
  have first : strtok (ascii " \n") (blanks ++ hash ++ 32 :: (name ++ ending)) = (some hash, name ++ ending) := by
    refine strtok_append (fun b member => ?_) filled (fun b member among => ?_) (by simp [ascii])
    · exact mem_delimiters.mpr (Or.inl (blank b member))
    · exact (mem_delimiters.mp among).elim (plain b member).1 (plain b member).2
  have second : strtok (ascii "\n") ([] ++ name ++ ending) = (some name, ending.drop 1) := by
    refine strtok_append (by simp) named (fun b member among => ?_) fun b head => ?_
    · exact single b member (mem_delimiter.mp among)
    · rcases ends with rfl | rfl
      · cases head
      · exact mem_delimiter.mpr (Option.some.inj head).symm
  unfold split
  rw [first]
  exact congrArg (fun found : Option Bytes × Bytes => (some hash, found.1)) second

theorem fields_of_split {text line hash name : Bytes} (member : line ∈ lines text)
    (found : split line = (some hash, some name)) : Fields line hash name := by
  obtain ⟨first, second⟩ := Prod.mk.inj found
  have token : strtok (ascii " \n") line = (some hash, (strtok (ascii " \n") line).2) := Prod.ext first rfl
  obtain ⟨skipped, tail, shape, skips, filled, plain, stops, left⟩ := strtok_some token
  rw [left] at second
  have other : strtok (ascii "\n") (tail.drop 1) = (some name, (strtok (ascii "\n") (tail.drop 1)).2) :=
    Prod.ext second rfl
  obtain ⟨before, after, below, newlines, named, single, ends, _⟩ := strtok_some other
  subst line
  have last : ∀ front back : Bytes, skipped ++ hash ++ tail = front ++ newline :: back → back = [] :=
    fun front back shape => line_newline (shape ▸ member)
  -- A newline ends the line, so what was skipped and what separates the fields are spaces.
  have spaces : ∀ b ∈ skipped, b = 32 := by
    intro b among
    apply (mem_delimiters.mp (skips b among)).resolve_right
    rintro rfl
    obtain ⟨front, back, rfl⟩ := List.append_of_mem among
    have empty := last front (back ++ hash ++ tail) (by simp)
    simp [filled] at empty
  cases tail with
  | nil => simp [named] at below
  | cons stop rest =>
    obtain rfl : rest = before ++ name ++ after := below
    have space : stop = 32 := by
      apply (mem_delimiters.mp (stops stop rfl)).resolve_right
      rintro rfl
      have empty := last (skipped ++ hash) (before ++ name ++ after) rfl
      simp [named] at empty
    have close : before = [] := by
      rcases before with _ | ⟨b, more⟩
      · rfl
      · obtain rfl := mem_delimiter.mp (newlines b List.mem_cons_self)
        have empty := last (skipped ++ hash ++ [stop]) (more ++ name ++ after) (by simp)
        simp [named] at empty
    have ending : after = [] ∨ after = [newline] := by
      rcases after with _ | ⟨b, more⟩
      · exact Or.inl rfl
      · obtain rfl := mem_delimiter.mp (ends b rfl)
        have empty := last (skipped ++ hash ++ stop :: (before ++ name)) more (by simp)
        exact Or.inr (by rw [empty])
    subst space close
    refine ⟨filled, fun b among => ?_, named, fun b among same => ?_, skipped, after, spaces, ending, by simp⟩
    · exact not_or.mp fun either => plain b among (mem_delimiters.mpr either)
    · exact single b among (mem_delimiter.mpr same)

end Fields

section Lines

structure Serves (files : Bytes → Option Bytes) (world : World) : Prop where
  offers : ∀ {name contents}, files name = some contents → Offers world name contents
  denies : ∀ {name}, files name = none → ∀ turn stream, world.openFile turn name = .ok stream → stream.ending ≠ .eof

def Good (files : Bytes → Option Bytes) (line : Bytes) : Prop :=
  ∃ hash name contents mark digits, Fields line hash name ∧ files name = some contents ∧
    Numeral hash [] [] mark digits ∧ hexValue digits = (crc32 contents).toNat

/-- A line whose hash field is no numeral of 32 bits, because of white space or a
sign in front of it or because of its size, and becomes the right hash only
when `strtoull` has read it and its upper half is gone. -/
def Disguised (files : Bytes → Option Bytes) (line : Bytes) : Prop :=
  ∃ hash name contents blank sign mark digits, Fields line hash name ∧ files name = some contents ∧
    Numeral hash blank sign mark digits ∧ (blank ≠ [] ∨ sign ≠ [] ∨ 2 ^ 32 ≤ hexValue digits) ∧
    toULongLong (sign = [45]) (hexValue digits) % 2 ^ 32 = (crc32 contents).toNat

/-- A line that ends the loop: it has no two fields, or its first is not a number. -/
def Malformed (line : Bytes) : Prop :=
  ∀ hash name blank sign mark digits, Fields line hash name → ¬ Numeral hash blank sign mark digits

variable {files : Bytes → Option Bytes} {world : World} {fn : Bytes} {lineno : Nat}

theorem verifyFile_flow (crc : UInt32) (name : Bytes) : (verifyFile world lineno crc name).flow = .next := by
  unfold verifyFile
  split
  · rfl
  · simp only
    split
    · rfl
    · split <;> rfl

theorem verifyFile_failed (serves : Serves files world) (crc : UInt32) (name : Bytes) :
    (verifyFile world lineno crc name).failed = false ↔ ∃ contents, files name = some contents ∧ crc = crc32 contents := by
  unfold verifyFile
  cases known : files name with
  | some contents =>
    obtain ⟨stream, opened, whole, rfl⟩ := serves.offers known lineno
    simp only [opened, getCrc32_eof whole, Option.some.injEq, exists_eq_left']
    split
    · next same => simp [same]
    · next different => simp [different]
  | none =>
    cases opened : world.openFile lineno name with
    | error errno => simp
    | ok stream =>
      have broken := serves.denies known lineno stream opened
      cases ending : stream.ending with
      | eof => exact absurd ending broken
      | failed errno => simp [getCrc32, ending]

variable (world) (fn lineno) {text line hash name blank sign mark digits : Bytes}

theorem processLine_numeral (member : line ∈ lines text) (terminated : 0 ∉ text) (fields : Fields line hash name)
    (numeral : Numeral hash blank sign mark digits) :
    processLine world fn lineno line =
      verifyFile world lineno (UInt32.ofNat (toULongLong (sign = [45]) (hexValue digits))) name := by
  obtain ⟨first, second⟩ := Prod.mk.inj (split_of_fields fields)
  unfold processLine
  rw [cString_self fun zero => terminated (mem_of_mem_lines member zero)]
  simp only [first, second, strtoull16_numeral numeral, ne_eq, not_true_eq_false, if_false]

theorem processLine_malformed (member : line ∈ lines text) (terminated : 0 ∉ text) (malformed : Malformed line) :
    (processLine world fn lineno line).failed = true ∧ (processLine world fn lineno line).flow = .stop := by
  unfold processLine
  rw [cString_self fun zero => terminated (mem_of_mem_lines member zero)]
  simp only
  split
  · next hash name first second =>
    have fields := fields_of_split member (Prod.ext first second)
    rw [if_pos]
    · exact ⟨rfl, rfl⟩
    · intro whole
      obtain ⟨blank, sign, mark, digits, numeral⟩ := numeral_of_strtoull16 fields.hash_filled whole
      exact malformed hash name blank sign mark digits fields numeral
  · exact ⟨rfl, rfl⟩

theorem processLine_flow (member : line ∈ lines text) (terminated : 0 ∉ text) :
    (processLine world fn lineno line).flow = .stop ↔ Malformed line := by
  constructor
  · intro stopped hash name blank sign mark digits fields numeral
    rw [processLine_numeral world fn lineno member terminated fields numeral, verifyFile_flow] at stopped
    cases stopped
  · exact fun malformed => (processLine_malformed world fn lineno member terminated malformed).2

variable {world}

theorem processLine_passes (serves : Serves files world) (member : line ∈ lines text) (terminated : 0 ∉ text)
    (fields : Fields line hash name) (numeral : Numeral hash blank sign mark digits) :
    (processLine world fn lineno line).failed = false ↔ ∃ contents, files name = some contents ∧
      toULongLong (sign = [45]) (hexValue digits) % 2 ^ 32 = (crc32 contents).toNat := by
  rw [processLine_numeral world fn lineno member terminated fields numeral, verifyFile_failed serves]
  simp only [← UInt32.toNat_inj, UInt32.toNat_ofNat']

theorem toULongLong_small {value : Nat} (small : value < 2 ^ 32) : toULongLong false value % 2 ^ 32 = value := by
  unfold toULongLong
  rw [if_neg (by omega)]
  exact Nat.mod_eq_of_lt small

theorem processLine_failed (serves : Serves files world) (member : line ∈ lines text) (terminated : 0 ∉ text) :
    (processLine world fn lineno line).failed = false ↔ Good files line ∨ Disguised files line := by
  constructor
  · intro passed
    by_cases malformed : Malformed line
    · rw [(processLine_malformed world fn lineno member terminated malformed).1] at passed
      cases passed
    simp only [Malformed, not_forall, not_not] at malformed
    obtain ⟨hash, name, blank, sign, mark, digits, fields, numeral⟩ := malformed
    obtain ⟨contents, known, value⟩ := (processLine_passes fn lineno serves member terminated fields numeral).mp passed
    -- A plain numeral of 32 bits is read as it stands; any other one that passes is disguised.
    by_cases plain : blank = [] ∧ sign = [] ∧ hexValue digits < 2 ^ 32
    · obtain ⟨rfl, rfl, small⟩ := plain
      exact Or.inl ⟨hash, name, contents, mark, digits, fields, known, numeral,
        (toULongLong_small small).symm.trans value⟩
    · refine Or.inr ⟨hash, name, contents, blank, sign, mark, digits, fields, known, numeral, ?_, value⟩
      by_contra neither
      simp only [not_or, ne_eq, not_not] at neither
      exact plain ⟨neither.1, neither.2.1, by omega⟩
  · rintro (⟨hash, name, contents, mark, digits, fields, known, numeral, value⟩ |
      ⟨hash, name, contents, blank, sign, mark, digits, fields, known, numeral, _, value⟩)
    · refine (processLine_passes fn lineno serves member terminated fields numeral).mpr ⟨contents, known, ?_⟩
      exact (toULongLong_small (value ▸ (crc32 contents).toNat_lt)).trans value
    · exact (processLine_passes fn lineno serves member terminated fields numeral).mpr ⟨contents, known, value⟩

theorem not_disguised_of_good (good : Good files line) : ¬ Disguised files line := by
  rintro ⟨hash, name, _, blank, sign, mark, digits, fields, _, numeral, unlike, _⟩
  obtain ⟨hash', name', contents, mark', digits', fields', _, plain, value⟩ := good
  have same := (split_of_fields fields).symm.trans (split_of_fields fields')
  obtain ⟨rfl⟩ := Option.some.inj (Prod.mk.inj same).1
  obtain ⟨rfl, rfl, rfl⟩ := numeral.plain_unique plain
  have small := (crc32 contents).toNat_lt
  simp only [ne_eq, not_true_eq_false, false_or] at unlike
  omega

end Lines

section Bundle

variable (world : World) (fn : Bytes) {files : Bytes → Option Bytes} {text : Bytes}

/-- Fewer lines than `budget` are read, or a malformed one stops the loop before. -/
def Fits (budget : Nat) (bundle : List Bytes) : Prop :=
  bundle.length ≤ budget ∨ ∃ line ∈ bundle.take budget, Malformed line

theorem fits_cons {line : Bytes} {rest : List Bytes} {budget : Nat} :
    Fits (budget + 1) (line :: rest) ↔ Malformed line ∨ Fits budget rest := by
  simp only [Fits, List.length_cons, List.take_succ_cons, List.exists_mem_cons_iff]
  constructor
  · rintro (short | malformed | later)
    · exact Or.inr (Or.inl (by omega))
    · exact Or.inl malformed
    · exact Or.inr (Or.inr later)
  · rintro (malformed | short | later)
    · exact Or.inr (Or.inl malformed)
    · exact Or.inl (by omega)
    · exact Or.inr (Or.inr later)

theorem processLines_cons {errors lineno : Nat} (counted : errors ≤ lineno) (room : lineno + 1 < 2 ^ 31)
    (line : Bytes) (rest : List Bytes) :
    ∃ outcome after, outcome = processLine world fn (lineno + 1) line ∧
      after = (if outcome.failed then errors + 1 else errors) ∧
      processLines world fn errors lineno (line :: rest) =
        match outcome.flow with
        | .stop => some (after, outcome.events)
        | .next => (processLines world fn after (lineno + 1) rest).map fun (total, more) =>
            (total, outcome.events ++ more) := by
  refine ⟨_, _, rfl, rfl, ?_⟩
  rw [processLines, increment, if_pos room]
  simp only [Option.bind_eq_bind, Option.bind_some, increment, if_pos (show errors + 1 < 2 ^ 31 by omega)]
  cases (processLine world fn (lineno + 1) line).failed <;> cases (processLine world fn (lineno + 1) line).flow <;>
    simp [Option.map_eq_bind]

theorem processLines_none (terminated : 0 ∉ text) {bundle : List Bytes} (members : ∀ line ∈ bundle, line ∈ lines text)
    {errors lineno budget : Nat} (counted : errors ≤ lineno) (room : lineno + budget = 2 ^ 31 - 1)
    (exceeds : ¬ Fits budget bundle) : processLines world fn errors lineno bundle = none := by
  -- The budget is what is left of the line counter.
  induction bundle generalizing errors lineno budget with
  | nil => exact absurd (Or.inl (Nat.zero_le _)) exceeds
  | cons line rest ih =>
    cases budget with
    | zero =>
      rw [processLines, increment, if_neg (by omega)]
      rfl
    | succ budget =>
      rw [fits_cons, not_or] at exceeds
      obtain ⟨outcome, after, rfl, count, turn⟩ := processLines_cons world fn counted (by omega) line rest
      rw [turn]
      split
      · next stopped =>
        have member := members line List.mem_cons_self
        exact absurd ((processLine_flow world fn (lineno + 1) member terminated).mp stopped) exceeds.1
      · have bound : after ≤ lineno + 1 := by rw [count]; split <;> omega
        rw [ih (fun line member => members line (List.mem_cons_of_mem _ member)) bound (by omega) exceeds.2]
        rfl

theorem processLines_some (serves : Serves files world) (terminated : 0 ∉ text) {bundle : List Bytes}
    (members : ∀ line ∈ bundle, line ∈ lines text) {errors lineno budget : Nat} (counted : errors ≤ lineno)
    (room : lineno + budget = 2 ^ 31 - 1) (fits : Fits budget bundle) :
    ∃ total events, processLines world fn errors lineno bundle = some (total, events) ∧
      (total = 0 ↔ errors = 0 ∧ ∀ line ∈ bundle, Good files line ∨ Disguised files line) := by
  induction bundle generalizing errors lineno budget with
  | nil => exact ⟨errors, [], rfl, by simp⟩
  | cons line rest ih =>
    cases budget with
    | zero => simp [Fits] at fits
    | succ budget =>
      have member := members line List.mem_cons_self
      obtain ⟨outcome, after, rfl, count, turn⟩ := processLines_cons world fn counted (by omega) line rest
      have passes := processLine_failed fn (lineno + 1) serves member terminated
      have bound : after ≤ lineno + 1 := by rw [count]; split <;> omega
      rw [turn, List.forall_mem_cons, ← passes]
      split
      -- The loop ends here, with this line counted as an error.
      · next stopped =>
        have malformed := (processLine_flow world fn (lineno + 1) member terminated).mp stopped
        have failed := (processLine_malformed world fn (lineno + 1) member terminated malformed).1
        refine ⟨after, _, rfl, ?_⟩
        rw [failed] at count ⊢
        simp [count]
      · next goes =>
        have later : Fits budget rest := by
          apply (fits_cons.mp fits).resolve_left
          intro malformed
          rw [(processLine_malformed world fn (lineno + 1) member terminated malformed).2] at goes
          cases goes
        obtain ⟨total, events, processed, zero⟩ :=
          ih (fun line member => members line (List.mem_cons_of_mem _ member)) bound (by omega) later
        refine ⟨total, _, by rw [processed]; rfl, ?_⟩
        rw [zero, count]
        cases (processLine world fn (lineno + 1) line).failed with
        | false => simp
        | true => simp

/-- The result is right exactly when fewer than 2^31 lines are read and, should
every line pass, none of them is disguised. -/
theorem process_bundle_iff (serves : Serves files world) (terminated : 0 ∉ text) :
    (∃ errors events, processBundle world (some text) fn = some (errors, events) ∧
      (errors = 0 ↔ ∀ line ∈ lines text, Good files line)) ↔
    Fits (2 ^ 31 - 1) (lines text) ∧
      ((∀ line ∈ lines text, Good files line ∨ Disguised files line) → ∀ line ∈ lines text, ¬ Disguised files line) := by
  have members : ∀ line ∈ lines text, line ∈ lines text := fun _ member => member
  constructor
  · rintro ⟨errors, events, processed, right⟩
    simp only [processBundle, Option.bind_eq_bind] at processed
    by_cases fits : Fits (2 ^ 31 - 1) (lines text)
    · obtain ⟨total, written, run, zero⟩ :=
        processLines_some world fn serves terminated members (Nat.le_refl 0) (by omega) fits
      rw [run] at processed
      obtain rfl : total = errors := (Prod.mk.inj (Option.some.inj processed)).1
      refine ⟨fits, fun passing line member => ?_⟩
      exact not_disguised_of_good (right.mp (zero.mpr ⟨rfl, passing⟩) line member)
    · rw [processLines_none world fn terminated members (Nat.le_refl 0) (by omega) fits] at processed
      cases processed
  · rintro ⟨fits, honest⟩
    obtain ⟨total, written, run, zero⟩ :=
      processLines_some world fn serves terminated members (Nat.le_refl 0) (by omega) fits
    refine ⟨total, _, by simp only [processBundle, Option.bind_eq_bind, run, Option.bind_some]; rfl, zero.trans ?_⟩
    constructor
    · rintro ⟨_, passing⟩ line member
      exact (passing line member).resolve_right (honest passing line member)
    · exact fun good => ⟨rfl, fun line member => Or.inl (good line member)⟩

end Bundle

section Samples

def twelve (name : Bytes) : Option Bytes := if name = ascii "a" then some (ascii "12") else none

theorem twelve_served : Serves twelve (onlyFile inOnePiece) where
  offers := by
    intro name contents known turn
    simp only [twelve, Option.ite_none_right_eq_some, Option.some.injEq] at known
    obtain ⟨rfl, rfl⟩ := known
    exact ⟨inOnePiece, by simp [onlyFile], rfl, by decide⟩
  denies := by
    intro name unknown turn stream opened
    have other : name ≠ ascii "a" := by
      rintro rfl
      simp [twelve] at unknown
    simp [onlyFile, other] at opened

theorem fields_sample (hash : Bytes) (filled : hash ≠ []) (plain : ∀ b ∈ hash, b ≠ 32 ∧ b ≠ newline) :
    Fields (hash ++ ascii " a\n") hash (ascii "a") where
  hash_filled := filled
  hash_plain := plain
  name_filled := by decide
  name_plain := by decide +kernel
  shape := ⟨[], [newline], by simp, Or.inr rfl, by simp [ascii, newline]⟩

theorem numeral_sample (digits : Bytes) (filled : digits ≠ []) (hex : ∀ b ∈ digits, isxdigit b = true) :
    Numeral digits [] [] [] digits :=
  ⟨rfl, by simp, Or.inl rfl, Or.inl rfl, filled, hex⟩

theorem process_bundle_right :
    ∃ errors events, processBundle (onlyFile inOnePiece) (some (ascii "4f5344cd a\n")) (ascii "bundle") =
        some (errors, events) ∧
      (errors = 0 ↔ ∀ line ∈ lines (ascii "4f5344cd a\n"), Good twelve line) := by
  have good : ∀ line ∈ lines (ascii "4f5344cd a\n"), Good twelve line := by
    intro line member
    obtain rfl : line = ascii "4f5344cd a\n" := by simpa [ascii, lines, newline] using member
    exact ⟨_, _, ascii "12", _, _, fields_sample (ascii "4f5344cd") (by decide) (by decide +kernel), by decide,
      numeral_sample _ (by decide) (by decide +kernel), by decide +kernel⟩
  refine (process_bundle_iff _ _ twelve_served (by decide)).mpr ⟨Or.inl (by decide), fun _ line member => ?_⟩
  exact not_disguised_of_good (good line member)

/-- With a digit in front of it the hash is another number, and accepted too. -/
theorem process_bundle_wrong :
    processBundle (onlyFile inOnePiece) (some (ascii "14f5344cd a\n")) (ascii "bundle") =
        some (0, [.stdout (ascii "a: OK\n")]) ∧
      ¬ ∀ line ∈ lines (ascii "14f5344cd a\n"), Good twelve line := by
  refine ⟨by decide +kernel, fun good => ?_⟩
  have disguised : Disguised twelve (ascii "14f5344cd a\n") :=
    ⟨_, _, ascii "12", _, _, _, _, fields_sample (ascii "14f5344cd") (by decide) (by decide +kernel), by decide,
      numeral_sample _ (by decide) (by decide +kernel), Or.inr (Or.inr (by decide)), by decide +kernel⟩
  exact not_disguised_of_good (good _ (by decide)) disguised

end Samples
end PosixC.Crc
