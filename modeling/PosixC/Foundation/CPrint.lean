import PosixC.Foundation.CText

/-! Numbers and lists as the printing functions of the C library write them. -/

set_option autoImplicit false

namespace PosixC.Foundation.CText

section Decimals

def literal (text : String) : Bytes := text.toList.map fun c => UInt8.ofNat c.toNat

def decimal (value : Int) : Bytes :=
  if value < 0 then 45 :: numeral 10 (-value).toNat else numeral 10 value.toNat

theorem decimal_natural (value : Nat) : decimal value = numeral 10 value := by
  rw [decimal, if_neg (by omega), Int.toNat_natCast]

theorem digit_of_digitChar {digit : Nat} (small : digit < 10) :
    isdigit (digitChar digit) = true ∧ (digitChar digit).toNat - 48 = digit := by
  interval_cases digit <;> decide

theorem isdigit_numeral {value : Nat} {byte : UInt8} (member : byte ∈ numeral 10 value) : isdigit byte = true := by
  unfold numeral at member
  split at member
  · rw [List.mem_singleton.mp member]
    decide
  · obtain ⟨digit, among, rfl⟩ := List.mem_map.mp member
    exact (digit_of_digitChar (Nat.digits_lt_base (by omega) (List.mem_reverse.mp among))).1

theorem decimalValue_numeral (value : Nat) : decimalValue (numeral 10 value) = value :=
  @foldl_numeral 10 (fun byte => byte.toNat - 48) (by decide) (fun _ small => (digit_of_digitChar small).2) value

theorem decimalInteger_decimal (value : Int) : DecimalInteger (decimal value) value := by
  have stops : ∀ b, ([] : Bytes).head? = some b → isdigit b = false := fun _ first => nomatch first
  unfold decimal
  split
  · next negative =>
    refine ⟨[], [45], numeral 10 (-value).toNat,
      ⟨by simp, fun _ member => (List.not_mem_nil member).elim, Or.inr (Or.inr rfl), numeral_ne_nil,
        fun _ => isdigit_numeral, stops⟩, ?_⟩
    rw [decimalValue_numeral, signed, decide_eq_true rfl, if_pos rfl]
    omega
  · refine ⟨[], [], numeral 10 value.toNat,
      ⟨by simp, fun _ member => (List.not_mem_nil member).elim, Or.inl rfl, numeral_ne_nil,
        fun _ => isdigit_numeral, stops⟩, ?_⟩
    rw [decimalValue_numeral, signed, decide_eq_false (by decide), if_neg (by decide)]
    omega

theorem decimal_injective : Function.Injective decimal := by
  intro value other same
  exact decimalInteger_unique (same ▸ decimalInteger_decimal value) (decimalInteger_decimal other)

theorem decimal_ne_nil {value : Int} : decimal value ≠ [] := by
  unfold decimal
  split
  · exact List.cons_ne_nil _ _
  · exact numeral_ne_nil

theorem decimal_bytes {value : Int} {byte : UInt8} (member : byte ∈ decimal value) : byte = 45 ∨ isdigit byte = true := by
  unfold decimal at member
  split at member
  · exact (List.mem_cons.mp member).imp id isdigit_numeral
  · exact Or.inr (isdigit_numeral member)

theorem space_not_decimal (value : Int) : 32 ∉ decimal value := by
  intro member
  rcases decimal_bytes member with same | digit
  · cases same
  · cases digit

end Decimals

section Separated

variable {α : Type} {gap : List α}

theorem intercalate_concat (items : List (List α)) (last : List α) :
    gap.intercalate (items ++ [last]) = items.flatMap (· ++ gap) ++ last := by
  induction items with
  | nil => simp
  | cons item rest ih =>
    have nonempty : rest ++ [last] ≠ [] := List.append_ne_nil_of_right_ne_nil rest (List.cons_ne_nil last [])
    obtain ⟨next, more, shape⟩ := List.exists_cons_of_ne_nil nonempty
    rw [List.cons_append, shape, List.intercalate_cons_cons, ← shape, ih]
    simp

theorem intercalate_injective [DecidableEq α] {mark : α} {items others : List (List α)} (filled : items ≠ [])
    (filled' : others ≠ []) (plain : ∀ item ∈ items, mark ∉ item) (plain' : ∀ item ∈ others, mark ∉ item)
    (same : [mark].intercalate items = [mark].intercalate others) : items = others := by
  rw [← List.splitOn_intercalate mark plain filled, same, List.splitOn_intercalate mark plain' filled']

end Separated

end PosixC.Foundation.CText
