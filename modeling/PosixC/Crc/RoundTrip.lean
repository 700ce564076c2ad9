import PosixC.Crc.Programs

/-! `crc32check` accepts what `crc32sum` wrote.

The hash of a file does not depend on how `read` cuts it, and a printed line
parses back into the hash and the name it was printed from.
-/

set_option autoImplicit false

namespace PosixC.Crc

open Foundation CText

section Reading

theorem crc32Update_append (context : Crc32) (first second : Bytes) :
    crc32Update context (first ++ second) = crc32Update (crc32Update context first) second := by
  simp only [crc32Update, List.foldl_append]

/-- Updating chunk by chunk is one update with everything. -/
theorem foldl_crc32Update (chunks : List Chunk) (context : Crc32) :
    chunks.foldl (fun context chunk => crc32Update context chunk.bytes) context =
      crc32Update context (chunks.map Chunk.bytes).flatten := by
  induction chunks generalizing context with
  | nil => rfl
  | cons chunk rest ih =>
    rw [List.foldl_cons, ih, List.map_cons, List.flatten_cons, crc32Update_append]

theorem getCrc32_eof {stream : Stream} (whole : stream.ending = .eof) :
    getCrc32 (some stream) = (some ⟨crc32 stream.contents⟩, []) := by
  simp only [getCrc32, whole, foldl_crc32Update]
  rfl

/-- Whenever the file is opened, its reads bring these contents to their end. -/
def Offers (world : World) (name contents : Bytes) : Prop :=
  ∀ turn, ∃ stream, world.openFile turn name = .ok stream ∧ stream.ending = .eof ∧ stream.contents = contents

end Reading

section Printing

theorem isxdigit_ne_zero {byte : UInt8} (digit : isxdigit byte = true) : byte ≠ 0 := by
  rintro rfl
  revert digit
  decide

theorem isxdigit_not_delimiter {byte : UInt8} (digit : isxdigit byte = true) : byte ∉ ascii " \n" := by
  intro member
  have space : byte = 32 ∨ byte = 10 := by simpa [ascii] using member
  rcases space with rfl | rfl <;> exact absurd digit (by decide)

theorem hash_numeral (hash : UInt32) :
    Numeral (zeroPadded 8 (numeral 16 hash.toNat)) [] [] [] (zeroPadded 8 (numeral 16 hash.toNat)) where
  shape := rfl
  blank := by simp
  sign := Or.inl rfl
  mark := Or.inl rfl
  filled := zeroPadded_ne_nil numeral_ne_nil
  digits := isxdigit_zeroPadded fun _ => isxdigit_numeral

theorem strtoull16_hash (hash : UInt32) : strtoull16 (zeroPadded 8 (numeral 16 hash.toNat)) = (hash.toNat, []) := by
  rw [strtoull16_numeral (hash_numeral hash), hexValue_zeroPadded, hexValue_numeral]
  have small := hash.toNat_lt
  unfold toULongLong
  rw [if_neg (by omega)]
  rfl

variable {name : Bytes} {hash : UInt32}

theorem sumLine_terminated (terminated : 0 ∉ name) : 0 ∉ sumLine hash name := by
  intro member
  simp only [sumLine, List.mem_append] at member
  rcases member with ((digit | space) | inside) | ending
  · exact isxdigit_ne_zero ((hash_numeral hash).digits 0 digit) rfl
  · exact absurd space (by decide)
  · exact terminated inside
  · exact absurd ending (by decide)

theorem processLine_sumLine {world : World} {fn : Bytes} {lineno : Nat} (filled : name ≠ [])
    (single : newline ∉ name) (terminated : 0 ∉ name) :
    processLine world fn lineno (sumLine hash name) = verifyFile world lineno hash name := by
  have first : strtok (ascii " \n") (sumLine hash name) =
      (some (zeroPadded 8 (numeral 16 hash.toNat)), name ++ ascii "\n") := by
    have shape : sumLine hash name =
        [] ++ zeroPadded 8 (numeral 16 hash.toNat) ++ (32 :: (name ++ ascii "\n")) := by
      simp [sumLine, ascii]
    rw [shape, strtok_append (by simp) (hash_numeral hash).filled
      (fun b member => isxdigit_not_delimiter ((hash_numeral hash).digits b member)) (by simp [ascii])]
    rfl
  -- The second call stops at newlines only, so the spaces of a name are kept.
  have second : strtok (ascii "\n") (name ++ ascii "\n") = (some name, []) := by
    have plain : ∀ b ∈ name, b ∉ ascii "\n" := by
      intro b member ending
      have same : b = newline := by simpa [ascii, newline] using ending
      exact single (same ▸ member)
    have found : strtok (ascii "\n") ([] ++ name ++ ascii "\n") = (some name, (ascii "\n").drop 1) :=
      strtok_append (by simp) filled plain (by simp [ascii])
    exact found
  unfold processLine
  rw [cString_self (sumLine_terminated terminated), first]
  simp only [second, strtoull16_hash]
  simp

theorem lines_sumLine {rest : Bytes} (single : newline ∉ name) :
    lines (sumLine hash name ++ rest) = sumLine hash name :: lines rest := by
  have body : newline ∉ zeroPadded 8 (numeral 16 hash.toNat) ++ ascii " " ++ name := by
    intro member
    simp only [List.mem_append] at member
    rcases member with (digit | space) | inside
    · exact isxdigit_not_delimiter ((hash_numeral hash).digits _ digit) (by decide)
    · exact absurd space (by decide)
    · exact single inside
  exact (congrArg lines (List.append_assoc _ _ _)).trans (lines_append _ rest body)

end Printing

section RoundTrip

@[simp] theorem output_append (first second : List Event) : output (first ++ second) = output first ++ output second :=
  List.flatMap_append

/-- A name that survives the round trip, and the file behind it. -/
structure Listed (writing checking : World) (name contents : Bytes) : Prop where
  filled : name ≠ []
  single : newline ∉ name
  named : name ≠ ascii "-"
  written : Offers writing name contents
  checked : Offers checking name contents

variable {writing checking : World} {name contents : Bytes}

theorem sumFile_listed (listed : Listed writing checking name contents) (turn errors : Nat)
    (room : errors + 1 < 2 ^ 31) :
    ∃ after events, sumFile writing turn errors name = some (after, events) ∧ after ≤ errors + 1 ∧
      output events = sumLine (crc32 contents) name := by
  obtain ⟨stream, opened, whole, rfl⟩ := listed.written turn
  unfold sumFile
  rw [if_neg listed.named, opened]
  simp only [getCrc32_eof whole, sumFile.closed]
  cases writing.closeFails turn with
  | none => exact ⟨_, _, rfl, by omega, by simp [output]⟩
  | some errno =>
    simp only [increment, if_pos room]
    exact ⟨_, _, rfl, by omega, by simp [output]⟩

theorem sumFiles_listed {files : List (Bytes × Bytes)}
    (listed : ∀ file ∈ files, Listed writing checking file.1 file.2) (turn errors : Nat)
    (room : errors + files.length < 2 ^ 31) :
    ∃ after events, sumFiles writing turn errors (files.map Prod.fst) = some (after, events) ∧
      output events = files.flatMap fun file => sumLine (crc32 file.2) file.1 := by
  induction files generalizing turn errors with
  | nil => exact ⟨errors, [], rfl, rfl⟩
  | cons file rest ih =>
    rw [List.length_cons] at room
    obtain ⟨after, events, first, bound, text⟩ :=
      sumFile_listed (listed file List.mem_cons_self) turn errors (by omega)
    obtain ⟨final, more, others, remainder⟩ :=
      ih (fun file member => listed file (List.mem_cons_of_mem _ member)) (turn + 1) after (by omega)
    -- A failed `fclose` is counted too, so there may be one error for each file.
    refine ⟨final, events ++ more, ?_, ?_⟩
    · rw [List.map_cons, sumFiles, first]
      simp only [Option.bind_eq_bind, Option.bind_some, others]
    · rw [output_append, text, remainder]
      rfl

theorem verifyFile_listed (listed : Listed writing checking name contents) (lineno : Nat) :
    ∃ events, verifyFile checking lineno (crc32 contents) name = ⟨false, .next, events⟩ ∧
      output events = name ++ ascii ": OK\n" := by
  obtain ⟨stream, opened, whole, rfl⟩ := listed.checked lineno
  unfold verifyFile
  rw [opened]
  simp only [getCrc32_eof whole, if_true]
  cases checking.closeFails lineno with
  | none => exact ⟨_, rfl, by simp [output]⟩
  | some errno => exact ⟨_, rfl, by simp [output]⟩

theorem processLines_listed {files : List (Bytes × Bytes)} (fn : Bytes)
    (listed : ∀ file ∈ files, Listed writing checking file.1 file.2) (strings : ∀ file ∈ files, 0 ∉ file.1)
    (errors lineno : Nat) (room : lineno + files.length < 2 ^ 31) :
    ∃ events, processLines checking fn errors lineno (files.map fun file => sumLine (crc32 file.2) file.1) =
        some (errors, events) ∧
      output events = files.flatMap fun file => file.1 ++ ascii ": OK\n" := by
  induction files generalizing lineno with
  | nil => exact ⟨[], rfl, rfl⟩
  | cons file rest ih =>
    rw [List.length_cons] at room
    have first := listed file List.mem_cons_self
    obtain ⟨events, verified, text⟩ := verifyFile_listed first (lineno + 1)
    obtain ⟨more, others, remainder⟩ := ih (fun file member => listed file (List.mem_cons_of_mem _ member))
      (fun file member => strings file (List.mem_cons_of_mem _ member)) (lineno + 1) (by omega)
    have line : processLine checking fn (lineno + 1) (sumLine (crc32 file.2) file.1) = _ :=
      processLine_sumLine first.filled first.single (strings file List.mem_cons_self)
    refine ⟨events ++ more, ?_, ?_⟩
    · rw [List.map_cons, processLines, increment, if_pos (by omega)]
      simp only [Option.bind_eq_bind, Option.bind_some, line, verified, Bool.false_eq_true, if_false, others]
    · rw [output_append, text, remainder]
      rfl

theorem lines_listed {files : List (Bytes × Bytes)}
    (listed : ∀ file ∈ files, Listed writing checking file.1 file.2) :
    lines (files.flatMap fun file => sumLine (crc32 file.2) file.1) =
      files.map fun file => sumLine (crc32 file.2) file.1 := by
  induction files with
  | nil => rfl
  | cons file rest ih =>
    rw [List.flatMap_cons, lines_sumLine (listed file List.mem_cons_self).single,
      ih fun file member => listed file (List.mem_cons_of_mem _ member)]
    rfl

/-- A bundle of any files but the standard input is verified line by line,
however the files are cut into chunks when it is written and when it is checked. -/
theorem check_accepts_sum {argv : Argv} {files : List (Bytes × Bytes)} (names : argv.args = files.map Prod.fst)
    (given : files ≠ []) (listed : ∀ file ∈ files, Listed writing checking file.1 file.2) (fn : Bytes) :
    ∃ written checked, crc32sum writing argv = some (0, written) ∧
      processBundle checking (some (output written)) fn = some (0, checked) ∧
      output checked = files.flatMap fun file => file.1 ++ ascii ": OK\n" := by
  have count := argv.argc
  have strings : ∀ file ∈ files, 0 ∉ file.1 := fun file member =>
    argv.strings file.1 (names ▸ List.mem_map_of_mem member)
  rw [names, List.length_map] at count
  obtain ⟨errors, written, summed, text⟩ := sumFiles_listed listed 0 0 (by omega)
  obtain ⟨checked, processed, report⟩ := processLines_listed fn listed strings 0 0 (by omega)
  refine ⟨written, checked, ?_, ?_, report⟩
  · have args : files.map Prod.fst ≠ [] := by simpa using given
    simp only [crc32sum, names, if_neg args, summed, Option.bind_eq_bind, Option.bind_some]
  · simp only [processBundle, text, lines_listed listed, processed, Option.bind_eq_bind, Option.bind_some, if_true,
      List.append_nil]

def onlyFile (stream : Stream) : World where
  stdin _ := ⟨[], .eof⟩
  openFile _ name := if name = ascii "a" then .ok stream else .error 2
  closeFails _ := none

def inOnePiece : Stream := ⟨[⟨ascii "12", by decide, by decide⟩], .eof⟩

def inTwoPieces : Stream := ⟨[⟨ascii "1", by decide, by decide⟩, ⟨ascii "2", by decide, by decide⟩], .eof⟩

theorem check_accepts_sum_split :
    ∃ written checked, crc32sum (onlyFile inOnePiece) ⟨[ascii "a"], by decide, by decide⟩ = some (0, written) ∧
      processBundle (onlyFile inTwoPieces) (some (output written)) (ascii "bundle") = some (0, checked) ∧
      output checked = ascii "a: OK\n" := by
  have offers : ∀ stream : Stream, stream.ending = .eof → stream.contents = ascii "12" →
      Offers (onlyFile stream) (ascii "a") (ascii "12") :=
    fun stream whole contents turn => ⟨stream, by simp [onlyFile], whole, contents⟩
  have listed : ∀ file ∈ [(ascii "a", ascii "12")],
      Listed (onlyFile inOnePiece) (onlyFile inTwoPieces) file.1 file.2 := by
    intro file member
    obtain rfl := List.mem_singleton.mp member
    exact ⟨by decide, by decide, by decide, offers _ rfl (by decide), offers _ rfl (by decide)⟩
  exact check_accepts_sum rfl (by decide) listed (ascii "bundle")

/-- Without any file the standard input is hashed under the name `-`, which the
check then takes for a file. -/
theorem check_rejects_stdin :
    ¬ ∀ (argv : Argv) (files : List (Bytes × Bytes)) (writing checking : World) (fn : Bytes),
      argv.args = files.map Prod.fst → (∀ file ∈ files, Listed writing checking file.1 file.2) →
      ∃ written checked, crc32sum writing argv = some (0, written) ∧
        processBundle checking (some (output written)) fn = some (0, checked) ∧
        output checked = files.flatMap fun file => file.1 ++ ascii ": OK\n" := by
  intro always
  obtain ⟨written, checked, summed, processed, _⟩ := always ⟨[], by decide, by decide⟩ []
    (onlyFile inOnePiece) (onlyFile inOnePiece) (ascii "bundle") rfl (by simp)
  have bundle : written = [.stdout (ascii "00000000 -\n")] := by
    have same : crc32sum (onlyFile inOnePiece) ⟨[], by decide, by decide⟩ =
        some (0, [.stdout (ascii "00000000 -\n")]) := by decide
    exact (Prod.mk.inj (Option.some.inj (summed.symm.trans same))).2
  rw [bundle] at processed
  have status : (processBundle _ _ _).map Prod.fst = some 0 := congrArg (Option.map Prod.fst) processed
  exact absurd status (by decide)

end RoundTrip
end PosixC.Crc
