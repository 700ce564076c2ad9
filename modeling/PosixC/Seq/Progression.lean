import PosixC.Foundation.CPrint

/-! seq of ex03: an arithmetic progression with a separator between its terms.

The loop adds the increment before it compares, so the term after the last one
has to be an `int` as well.
-/

set_option autoImplicit false

namespace PosixC.Seq

open Foundation CText

section Model

structure Options where
  separator : Bytes
  format : Bytes

def Options.default : Options := ⟨[newline], literal "%d"⟩

/-- Why the program ends without its output. `unfinished` is the end of the turns the
loop is given. -/
inductive Stop where
  | usage (message : String)
  | overflow
  | unfinished
  deriving DecidableEq, Repr

/-- The output loop, for a number of turns. `printf` is what the C library prints for
a format and a number. -/
def outputLoop (printf : Bytes → Int → Bytes) (options : Options) (incr last : Int) : Nat → Int → Except Stop Bytes
  | 0, start => if start ≤ last then .error .unfinished else .ok []
  | turns + 1, start =>
      if start ≤ last then
        match exactInt (start + incr) with
        | none => .error .overflow
        | some next =>
            match outputLoop printf options incr last turns next with
            | .error stop => .error stop
            | .ok rest =>
                .ok (printf options.format start ++ (if next ≤ last then options.separator else []) ++ rest)
      else .ok []

def operands : List Bytes → Except Stop (Int × Int × Int)
  | [last] => .ok (1, 1, strtolInt last)
  | [start, last] => .ok (strtolInt start, 1, strtolInt last)
  | [start, incr, last] => .ok (strtolInt start, strtolInt incr, strtolInt last)
  | _ => .error (.usage "Too many numbers specified!\n")

def seqMain (printf : Bytes → Int → Bytes) (options : Options) (turns : Nat) (args : List Bytes) : Except Stop Bytes :=
  match operands args with
  | .error stop => .error stop
  | .ok (start, incr, last) =>
      match outputLoop printf options incr last turns start with
      | .error stop => .error stop
      | .ok text => .ok (text ++ [newline])

end Model

section Loop

variable {printf : Bytes → Int → Bytes} {options : Options} {incr last start : Int}

structure Terms (start incr last : Int) (terms : List Int) : Prop where
  spaced : terms = (List.range terms.length).map fun k : Nat => start + k * incr
  complete : ∀ k : Nat, k < terms.length ↔ start + k * incr ≤ last

/-- The loop ends, and the terms are printed with the separator between them. -/
def Prints (printf : Bytes → Int → Bytes) (options : Options) (start incr last : Int) : Prop :=
  ∃ turns terms, Terms start incr last terms ∧
    outputLoop printf options incr last turns start =
      .ok (options.separator.intercalate (terms.map (printf options.format)))

def progression (start incr : Int) (count : Nat) : List Int := (List.range count).map fun k : Nat => start + k * incr

theorem term_succ (k : Nat) : start + incr + k * incr = start + (k + 1 : Nat) * incr := by
  rw [Int.natCast_add, Int.add_mul]
  omega

theorem progression_succ (count : Nat) :
    progression start incr (count + 1) = start :: progression (start + incr) incr count := by
  unfold progression
  rw [List.range_succ_eq_map, List.map_cons, List.map_map]
  congr 1
  · simp
  · exact List.map_congr_left fun k _ => (term_succ k).symm

theorem outputLoop_turn {turns : Nat} {next : Int} {rest : Bytes} (inside : start ≤ last)
    (added : exactInt (start + incr) = some next)
    (later : outputLoop printf options incr last turns next = .ok rest) :
    outputLoop printf options incr last (turns + 1) start =
      .ok (printf options.format start ++ (if next ≤ last then options.separator else []) ++ rest) := by
  simp only [outputLoop, if_pos inside, added, later]

/-- As long as the term after the last one is an `int`, all terms are printed. -/
theorem outputLoop_prints {count : Nat} (positive : 0 < incr) (isInt : IsInt start)
    (inside : ∀ k < count, start + k * incr ≤ last) (beyond : last < start + count * incr)
    (fits : start + count * incr ≤ intMax) : outputLoop printf options incr last count start =
      .ok (options.separator.intercalate ((progression start incr count).map (printf options.format))) := by
  induction count generalizing start with
  | zero =>
    have done : ¬ start ≤ last := by simpa using beyond
    rw [outputLoop, if_neg done]
    rfl
  | succ count ih =>
    have first : start ≤ last := by simpa using inside 0 (Nat.succ_pos count)
    have nonneg : 0 ≤ (count : Int) * incr := Int.mul_nonneg (Int.natCast_nonneg _) positive.le
    have next : IsInt (start + incr) := by
      rw [← term_succ] at fits
      unfold IsInt at isInt ⊢
      omega
    have later := ih next (fun k below => term_succ k ▸ inside (k + 1) (Nat.succ_lt_succ below))
      (term_succ count ▸ beyond) (term_succ count ▸ fits)
    rw [outputLoop_turn first (exactInt_some next) later, progression_succ, List.map_cons]
    -- A separator is printed exactly if there is another term.
    cases count with
    | zero =>
      have last_one : ¬ start + incr ≤ last := by simpa using beyond
      simp [progression, last_one]
    | succ count =>
      have another : start + incr ≤ last := by simpa using inside 1 (by omega)
      rw [if_pos another, progression_succ, List.map_cons, List.intercalate_cons_cons]

/-- The terms up to `last` lead to a sum that is no `int`. -/
theorem outputLoop_overflows {turns count : Nat} (inside : ∀ k ≤ count, start + k * incr ≤ last)
    (large : intMax < start + (count + 1 : Nat) * incr) (text : Bytes) :
    outputLoop printf options incr last turns start ≠ .ok text := by
  intro printed
  have first : start ≤ last := by simpa using inside 0 (Nat.zero_le _)
  induction turns generalizing start count text with
  | zero =>
    rw [outputLoop, if_pos first] at printed
    cases printed
  | succ turns ih =>
    rw [outputLoop, if_pos first] at printed
    by_cases fits : IsInt (start + incr)
    · simp only [exactInt_some fits] at printed
      cases later : outputLoop printf options incr last turns (start + incr) with
      | error stop => simp only [later, reduceCtorEq] at printed
      | ok rest =>
        cases count with
        | zero =>
          have sum : intMax < start + incr := by simpa using large
          exact absurd fits.2 (not_le.mpr sum)
        | succ count =>
          rw [← term_succ] at large
          refine ih (fun k below => ?_) large rest later (by simpa using inside 1 (by omega))
          rw [term_succ]
          exact inside (k + 1) (Nat.succ_le_succ below)
    · simp only [exactInt_none fits, reduceCtorEq] at printed

def termCount (start incr last : Int) : Nat := if start ≤ last then ((last - start) / incr).toNat + 1 else 0

theorem lt_termCount (positive : 0 < incr) (k : Nat) : k < termCount start incr last ↔ start + k * incr ≤ last := by
  have nonneg : 0 ≤ (k : Int) * incr := Int.mul_nonneg (Int.natCast_nonneg _) positive.le
  unfold termCount
  split
  · next nonempty =>
    have quotient : (k : Int) ≤ (last - start) / incr ↔ k * incr ≤ last - start := Int.le_ediv_iff_mul_le positive
    have quotient_nonneg : 0 ≤ (last - start) / incr := Int.ediv_nonneg (by omega) positive.le
    omega
  · omega

theorem terms_progression (positive : 0 < incr) :
    Terms start incr last (progression start incr (termCount start incr last)) := by
  have length : (progression start incr (termCount start incr last)).length = termCount start incr last := by
    simp [progression]
  refine ⟨?_, fun k => ?_⟩
  · rw [length]
    rfl
  · rw [length, lt_termCount positive]

theorem prints_of_fits (printf : Bytes → Int → Bytes) (options : Options) (isInt : IsInt start) (positive : 0 < incr)
    (fits : start + termCount start incr last * incr ≤ intMax) : Prints printf options start incr last := by
  refine ⟨_, _, terms_progression positive, outputLoop_prints positive isInt ?_ ?_ fits⟩
  · exact fun k => (lt_termCount positive k).mp
  · exact not_le.mp (mt (lt_termCount positive _).mpr (lt_irrefl _))

/-- The progression is printed exactly if the first number beyond `last` is an `int`. -/
theorem prints_iff (isInt : IsInt start) (positive : 1 ≤ incr) :
    Prints printf options start incr last ↔ start + termCount start incr last * incr ≤ intMax := by
  constructor
  · rintro ⟨turns, terms, _, printed⟩
    by_contra large
    cases count : termCount start incr last with
    | zero =>
      rw [count] at large
      exact large (by simpa using isInt.2)
    | succ last_index =>
      rw [count] at large
      refine outputLoop_overflows (fun k below => ?_) (not_le.mp large) _ printed
      exact (lt_termCount positive k).mp (by omega)
  · exact prints_of_fits printf options isInt positive

theorem prints_odd : Prints (fun _ => decimal) .default 1 2 6 :=
  (prints_iff (by decide) (by decide)).mpr (by decide)

example : seqMain (fun _ => decimal) .default 4 [literal "1", literal "2", literal "6"] = .ok (literal "1\n3\n5\n") := by
  decide +kernel

/-- After the largest `int` there is no number to stop at. -/
theorem prints_overflow : ¬ Prints (fun _ => decimal) .default 2147483647 1 2147483647 := by
  rintro ⟨turns, terms, _, printed⟩
  have only : ∀ k ≤ 0, (2147483647 : Int) + (k : Nat) * 1 ≤ 2147483647 := by omega
  exact outputLoop_overflows only (by decide) _ printed

end Loop

section Program

variable {printf : Bytes → Int → Bytes} {options : Options} {args : List Bytes} {start incr last : Int}

theorem operands_isInt (given : operands args = .ok (start, incr, last)) : IsInt start := by
  unfold operands at given
  split at given
  · cases given
    decide
  · cases given
    exact strtolInt_isInt _
  · cases given
    exact strtolInt_isInt _
  · cases given

theorem seqMain_prints (given : operands args = .ok (start, incr, last)) (positive : 1 ≤ incr)
    (fits : start + termCount start incr last * incr ≤ intMax) :
    ∃ turns terms, Terms start incr last terms ∧ seqMain printf options turns args =
      .ok (options.separator.intercalate (terms.map (printf options.format)) ++ [newline]) := by
  obtain ⟨turns, terms, exact_terms, printed⟩ := prints_of_fits printf options (operands_isInt given) positive fits
  exact ⟨turns, terms, exact_terms, by simp only [seqMain, given, printed]⟩

end Program
end PosixC.Seq
